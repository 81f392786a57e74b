import Crinha.Slots.Table

/-!
# The poll table of `server/server.c`

* `poll_table`: the table and the calls on sockets, for any results of `poll` and `accept`.
-/

namespace Crinha
open Slots

def socketMaxPoll : Nat := 16

instance : @NeZero Nat Zero.ofOfNat0 socketMaxPoll := ⟨Nat.succ_ne_zero 15⟩

def pollIn : UInt16 := 1

structure PollFd where
  fd : Int
  events : UInt16
  revents : UInt16

abbrev Pfds := Fin socketMaxPoll → PollFd

/-- The array with `nfds`. -/
structure Tabela where
  pfds : Pfds
  nfds : Nat

def Tabela.fds (t : Tabela) (i : Fin socketMaxPoll) : Int := (t.pfds i).fd

/-! ## `poll_init`, `poll_push`, `poll_pop` -/

/-- `revents` is not set. -/
def pollInit (pfds : Pfds) : Pfds := fun i => { pfds i with fd := -1, events := pollIn }

/-- The first slot of a descriptor. -/
def slotDe (pfds : Pfds) (fd : Int) : Option (Fin socketMaxPoll) :=
  (List.finRange socketMaxPoll).find? fun i => (pfds i).fd == fd

def pollPush (t : Tabela) (fd : Int) : Tabela :=
  if t.nfds ≥ socketMaxPoll then t
  else
    match slotDe t.pfds (-1) with
    | some i =>
      ⟨Function.update t.pfds i { t.pfds i with fd := fd, revents := 0 }, t.nfds + 1⟩
    | none => t

def pollPop (t : Tabela) (fd : Int) : Tabela :=
  match slotDe t.pfds fd with
  | some i => ⟨Function.update t.pfds i { t.pfds i with fd := -1 }, t.nfds - 1⟩
  | none => t

/-! ## `socket_loop` -/

inductive Chamada where
  | read
  | shutdown
  | close
  deriving DecidableEq

/-- What `socket_loop` does: a `poll` that reports sockets, an `accept` that succeeds, or
a call on a socket. -/
inductive Evento where
  | polled (fds : Finset Int)
  | accepted (fd : Int)
  | called (call : Chamada) (fd : Int)
  deriving DecidableEq

/-- One turn of the inner loop, with its events, the last first; `accepted` is what
`accept` returns if it is called. -/
def slotTurn (t : Tabela) (i : Fin socketMaxPoll) (accepted : Int) : List Evento × Tabela :=
  let fd := t.fds i
  if (t.pfds i).revents = 0 then ([], t)
  else if (t.pfds i).revents &&& pollIn ≠ 0 then
    if i = 0 then
      if t.nfds ≥ socketMaxPoll then ([], t)
      else if 0 ≤ accepted then ([.accepted accepted], pollPush t accepted)
      else ([], t)
    else ([.called .close fd, .called .shutdown fd, .called .read fd], pollPop t fd)
  else if i = 0 then ([], t)
  else ([.called .close fd, .called .shutdown fd], pollPop t fd)

/-- What `poll` makes of the table. -/
def Tabela.report (t : Tabela) (revents : Fin socketMaxPoll → UInt16) : Tabela :=
  { t with pfds := fun i => { t.pfds i with revents := revents i } }

/-- The sockets with something to report. -/
def Tabela.reported (t : Tabela) : Finset Int :=
  (Finset.univ.filter fun i => (t.pfds i).revents ≠ 0).image t.fds

/-- At `poll`, or at a turn of the inner loop. -/
inductive Controle where
  | poll
  | slot (i : Fin socketMaxPoll)
  deriving DecidableEq

/-- `i++` and the test of the inner loop. -/
def Controle.next (i : Fin socketMaxPoll) : Controle :=
  if h : i.val + 1 < socketMaxPoll then .slot ⟨i.val + 1, h⟩ else .poll

/-- The accepted sockets that are not closed. The last event is the first of the list. -/
def abertos : List Evento → Finset Int
  | [] => ∅
  | .accepted fd :: tr => insert fd (abertos tr)
  | .called .close fd :: tr => (abertos tr).erase fd
  | _ :: tr => abertos tr

/-- The sockets that the last `poll` reported. -/
def relatados : List Evento → Finset Int
  | [] => ∅
  | .polled fds :: _ => fds
  | _ :: tr => relatados tr

/-- The sockets that were accepted since the last `poll`. -/
def novos : List Evento → Finset Int
  | [] => ∅
  | .polled _ :: _ => ∅
  | .accepted fd :: tr => insert fd (novos tr)
  | _ :: tr => novos tr

/-- The runs of `socket_loop`. A `poll` that fails may leave anything in `revents`; `accept`
returns a descriptor that is not open. -/
inductive Laco (sock : Int) : List Evento → Controle → Tabela → Prop where
  | start (pfds : Pfds) : Laco sock [] .poll (pollPush ⟨pollInit pfds, 0⟩ sock)
  | failed {tr : List Evento} {t : Tabela} (revents : Fin socketMaxPoll → UInt16)
      (before : Laco sock tr .poll t) : Laco sock tr .poll (t.report revents)
  | poll {tr : List Evento} {t : Tabela} (revents : Fin socketMaxPoll → UInt16)
      (unused : ∀ i, t.fds i = -1 → revents i = 0) (before : Laco sock tr .poll t) :
      Laco sock (.polled (t.report revents).reported :: tr) (.slot 0) (t.report revents)
  | turn {tr : List Evento} {t : Tabela} {i : Fin socketMaxPoll} (accepted : Int)
      (fresh : 0 ≤ accepted → accepted ≠ sock ∧ accepted ∉ abertos tr)
      (before : Laco sock tr (.slot i) t) :
      Laco sock ((slotTurn t i accepted).1 ++ tr) (.next i) (slotTurn t i accepted).2

/-! ## What the functions do -/

section
variable {t : Tabela} {i : Fin socketMaxPoll} {fd : Int}

theorem fds_update (pfds : Pfds) (nfds : Nat) (i : Fin socketMaxPoll) (slot : PollFd) :
    (Tabela.mk (Function.update pfds i slot) nfds).fds =
      Function.update (Tabela.fds ⟨pfds, nfds⟩) i slot.fd := by
  funext j
  by_cases hj : j = i
  · subst hj
    simp [Tabela.fds]
  · simp [Tabela.fds, hj]

theorem slotDe_some {pfds : Pfds} (h : slotDe pfds fd = some i) : (pfds i).fd = fd := by
  simpa using List.find?_some h

theorem slotDe_isSome {pfds : Pfds} (h : (pfds i).fd = fd) : ∃ j, slotDe pfds fd = some j := by
  rw [← Option.isSome_iff_exists, slotDe, List.find?_isSome]
  exact ⟨i, List.mem_finRange i, by simpa using h⟩

/-- A socket is put into a free slot as long as there is one. -/
theorem pollPush_spec (fd : Int) (hn : t.nfds = (occupied (-1) t.fds).card)
    (hlt : t.nfds < socketMaxPoll) :
    ∃ i, t.fds i = -1 ∧ pollPush t fd =
      ⟨Function.update t.pfds i { t.pfds i with fd := fd, revents := 0 }, t.nfds + 1⟩ := by
  obtain ⟨j, hj⟩ : ∃ j, t.fds j = -1 := by
    apply exists_free
    rw [Fintype.card_fin, ← hn]
    exact hlt
  obtain ⟨i, hi⟩ := slotDe_isSome hj
  refine ⟨i, slotDe_some hi, ?_⟩
  rw [pollPush, if_neg (Nat.not_le.mpr hlt), hi]

/-- The slot that is freed is the one the socket was found in. -/
theorem pollPop_spec (hd : Distinct (-1) t.fds) (hi : t.fds i ≠ -1) :
    pollPop t (t.fds i) =
      ⟨Function.update t.pfds i { t.pfds i with fd := -1 }, t.nfds - 1⟩ := by
  obtain ⟨j, hj⟩ : ∃ j, slotDe t.pfds (t.fds i) = some j := slotDe_isSome rfl
  obtain rfl : i = j := hd i j hi (slotDe_some hj).symm
  rw [pollPop, hj]

/-- What one turn can do: nothing, put an accepted socket into the table, or close the
socket of the slot and take it out. -/
theorem slotTurn_cases (t : Tabela) (i : Fin socketMaxPoll) (accepted : Int) :
    slotTurn t i accepted = ([], t) ∨
    (0 ≤ accepted ∧ i = 0 ∧ t.nfds < socketMaxPoll ∧
      slotTurn t i accepted = ([.accepted accepted], pollPush t accepted)) ∨
    (i ≠ 0 ∧ (t.pfds i).revents ≠ 0 ∧ ∃ calls,
      (calls = [.called .read (t.fds i)] ∨ calls = []) ∧
      slotTurn t i accepted =
        (.called .close (t.fds i) :: .called .shutdown (t.fds i) :: calls,
          pollPop t (t.fds i))) := by
  unfold slotTurn
  simp only
  split
  · exact .inl rfl
  · rename_i hrev
    split
    · split
      · rename_i hi
        split
        · exact .inl rfl
        · rename_i hfull
          split
          · rename_i ha
            exact .inr (.inl ⟨ha, hi, Nat.not_le.mp hfull, rfl⟩)
          · exact .inl rfl
      · rename_i hi
        exact .inr (.inr ⟨hi, hrev, _, .inl rfl, rfl⟩)
    · split
      · exact .inl rfl
      · rename_i hi
        exact .inr (.inr ⟨hi, hrev, [], .inr rfl, rfl⟩)

end

/-! ## What is allowed -/

/-- What a call may act on: an open socket that the last `poll` reported and that was not
accepted since. -/
structure Permitido (tr : List Evento) (fd : Int) : Prop where
  aberto : fd ∈ abertos tr
  relatado : fd ∈ relatados tr
  antigo : fd ∉ novos tr

/-- Every call was on such a socket. -/
def Licito : List Evento → Prop
  | [] => True
  | .called _ fd :: tr => Permitido tr fd ∧ Licito tr
  | _ :: tr => Licito tr

/-- The slots whose turn is still to come. -/
def Controle.Pendente : Controle → Fin socketMaxPoll → Prop
  | poll, _ => False
  | slot i, j => i ≤ j

theorem pendente_next {i j : Fin socketMaxPoll} (h : (Controle.next i).Pendente j) : i < j := by
  unfold Controle.next at h
  split at h
  · exact Nat.lt_of_succ_le h
  · exact h.elim

/-! ## What the table stands for -/

section
variable {sock fd : Int} {sockets : Finset Int} {tr : List Evento} {c : Controle} {t : Tabela}
  {i : Fin socketMaxPoll}

/-- The table stands for the set of its sockets, with the listening one in slot 0. -/
structure Guarda (sock : Int) (sockets : Finset Int) (t : Tabela) : Prop where
  listening : t.fds 0 = sock
  nfds : t.nfds = (occupied (-1) t.fds).card
  distinct : Distinct (-1) t.fds
  fds_eq : keys (-1) t.fds = insert sock sockets
  sock_notMem : sock ∉ sockets

/-- The table with no slot in use. -/
def vazia : Fin socketMaxPoll → Int := fun _ => -1

theorem occupied_vazia : occupied (-1) vazia = ∅ := by
  ext i
  simp [vazia]

theorem guarda_init (hsock : 0 ≤ sock) (pfds : Pfds) :
    Guarda sock ∅ (pollPush ⟨pollInit pfds, 0⟩ sock) := by
  have hne : sock ≠ -1 := by omega
  have hslot : slotDe (pollInit pfds) (-1) = some 0 := rfl
  have hpush : pollPush ⟨pollInit pfds, 0⟩ sock = ⟨Function.update (pollInit pfds) 0
      { pollInit pfds 0 with fd := sock, revents := 0 }, 1⟩ := by
    have hroom : ¬(0 : Nat) ≥ socketMaxPoll := by decide
    rw [pollPush]
    simp only [if_neg hroom, hslot]
  have hfds : (pollPush ⟨pollInit pfds, 0⟩ sock).fds = Function.update vazia 0 sock := by
    rw [hpush, fds_update]
    rfl
  have hfree : vazia 0 = -1 := rfl
  have hkeys : keys (-1) vazia = ∅ := by rw [Slots.keys, occupied_vazia, Finset.image_empty]
  exact {
    listening := by rw [hfds, Function.update_self]
    nfds := by rw [hfds, card_occupied_insert hfree hne, occupied_vazia, hpush, Finset.card_empty]
    distinct := by
      rw [hfds]
      refine Distinct.insert (fun i j hi => absurd rfl hi) ?_
      rw [hkeys]
      exact Finset.notMem_empty _
    fds_eq := by rw [hfds, keys_insert hfree hne, hkeys]
    sock_notMem := Finset.notMem_empty _ }

theorem Guarda.mem (h : Guarda sock sockets t) (hi : t.fds i ≠ -1) :
    t.fds i = sock ∨ t.fds i ∈ sockets := by
  rw [← Finset.mem_insert, ← h.fds_eq]
  exact mem_keys.mpr ⟨hi, i, rfl⟩

/-- Only the listening socket is not one of the set. -/
theorem Guarda.mem_of_ne (h : Guarda sock sockets t) (hi : i ≠ 0) (hused : t.fds i ≠ -1) :
    t.fds i ∈ sockets := by
  apply (h.mem hused).resolve_left
  intro he
  exact hi (h.distinct i 0 hused (he.trans h.listening.symm))

/-- `poll_push` adds to the set, and changes one slot, which has nothing to report. -/
theorem Guarda.push (hsock : 0 ≤ sock) (h : Guarda sock sockets t) (hlt : t.nfds < socketMaxPoll)
    (hfd : 0 ≤ fd) (fresh : fd ≠ sock ∧ fd ∉ sockets) :
    Guarda sock (insert fd sockets) (pollPush t fd) ∧ ∀ k,
      (pollPush t fd).pfds k = t.pfds k ∨ ((pollPush t fd).pfds k).revents = 0 := by
  have hne : fd ≠ -1 := by omega
  obtain ⟨j, hj, hpush⟩ := pollPush_spec fd h.nfds hlt
  have hfds : (pollPush t fd).fds = Function.update t.fds j fd := by
    rw [hpush, fds_update]
    rfl
  have hnew : fd ∉ keys (-1) t.fds := by
    rw [h.fds_eq, Finset.mem_insert]
    exact not_or.mpr fresh
  have hlistening := h.listening
  have hj0 : (0 : Fin socketMaxPoll) ≠ j := by
    intro he
    rw [he] at hlistening
    omega
  constructor
  · exact {
      listening := by rw [hfds, Function.update_of_ne hj0, hlistening]
      nfds := by rw [hfds, card_occupied_insert hj hne, ← h.nfds, hpush]
      distinct := by
        rw [hfds]
        exact h.distinct.insert hnew
      fds_eq := by rw [hfds, keys_insert hj hne, h.fds_eq, Finset.insert_comm]
      sock_notMem := by
        rw [Finset.mem_insert]
        exact not_or.mpr ⟨fresh.1.symm, h.sock_notMem⟩ }
  · intro k
    rw [hpush]
    by_cases hk : k = j
    · subst hk
      exact .inr (by simp)
    · exact .inl (Function.update_of_ne hk _ _)

/-- `poll_pop` takes out of the set, and changes the slot of the socket only. -/
theorem Guarda.pop (h : Guarda sock sockets t) (hi : i ≠ 0) (hused : t.fds i ≠ -1) :
    Guarda sock (sockets.erase (t.fds i)) (pollPop t (t.fds i)) ∧ ∀ k, k ≠ i →
      (pollPop t (t.fds i)).pfds k = t.pfds k := by
  have hpop := pollPop_spec h.distinct hused
  have hfds : (pollPop t (t.fds i)).fds = Function.update t.fds i (-1) := by
    rw [hpop, fds_update]
    rfl
  have hne : sock ≠ t.fds i := by
    intro he
    exact h.sock_notMem (he ▸ h.mem_of_ne hi hused)
  constructor
  · exact {
      listening := by rw [hfds, Function.update_of_ne hi.symm, h.listening]
      nfds := by rw [hfds, card_occupied_erase hused, ← h.nfds, hpop]
      distinct := by
        rw [hfds]
        exact h.distinct.erase
      fds_eq := by
        rw [hfds, keys_erase h.distinct hused, h.fds_eq, Finset.erase_insert_of_ne hne]
      sock_notMem := fun hm => h.sock_notMem (Finset.mem_of_mem_erase hm) }
  · intro k hk
    rw [hpop]
    exact Function.update_of_ne hk _ _

/-! ## The invariant -/

/-- The table stands for the open sockets, what is left to serve was reported, and nothing
else was served. -/
structure EmOrdem (sock : Int) (tr : List Evento) (c : Controle) (t : Tabela) : Prop where
  guarda : Guarda sock (abertos tr) t
  pendente : ∀ i, c.Pendente i → (t.pfds i).revents ≠ 0 →
    t.fds i ≠ -1 ∧ t.fds i ∈ relatados tr ∧ t.fds i ∉ novos tr
  licito : Licito tr

theorem EmOrdem.poll (h : EmOrdem sock tr .poll t) (revents : Fin socketMaxPoll → UInt16)
    (unused : ∀ i, t.fds i = -1 → revents i = 0) :
    EmOrdem sock (.polled (t.report revents).reported :: tr) (.slot 0) (t.report revents) where
  guarda := ⟨h.guarda.listening, h.guarda.nfds, h.guarda.distinct, h.guarda.fds_eq,
    h.guarda.sock_notMem⟩
  pendente := fun i _ hrev => by
    refine ⟨fun hfree => hrev (unused i hfree), ?_, Finset.notMem_empty _⟩
    exact Finset.mem_image_of_mem _ (Finset.mem_filter.mpr ⟨Finset.mem_univ i, hrev⟩)
  licito := h.licito

/-- A turn that does nothing. -/
theorem EmOrdem.skip (h : EmOrdem sock tr (.slot i) t) : EmOrdem sock tr (.next i) t :=
  ⟨h.guarda, fun j hj => h.pendente j (Nat.le_of_lt (pendente_next hj)), h.licito⟩

theorem EmOrdem.accept (hsock : 0 ≤ sock) (h : EmOrdem sock tr (.slot i) t) (hfd : 0 ≤ fd)
    (hlt : t.nfds < socketMaxPoll) (fresh : fd ≠ sock ∧ fd ∉ abertos tr) :
    EmOrdem sock (.accepted fd :: tr) (.next i) (pollPush t fd) := by
  obtain ⟨hguarda, hframe⟩ := h.guarda.push hsock hlt hfd fresh
  refine ⟨hguarda, ?_, h.licito⟩
  intro k hk hrev
  have hsame : (pollPush t fd).pfds k = t.pfds k := (hframe k).resolve_right hrev
  have hfds : (pollPush t fd).fds k = t.fds k := congrArg PollFd.fd hsame
  rw [hsame] at hrev
  obtain ⟨hused, hrel, hold⟩ := h.pendente k (Nat.le_of_lt (pendente_next hk)) hrev
  have hne : t.fds k ≠ fd := by
    intro he
    rcases h.guarda.mem hused with hm | hm
    · exact fresh.1 (he.symm.trans hm)
    · exact fresh.2 (he ▸ hm)
  rw [hfds]
  exact ⟨hused, hrel, by simp [novos, hold, hne]⟩

/-- A turn that closes the socket of the slot, after `calls`. -/
theorem EmOrdem.close (h : EmOrdem sock tr (.slot i) t) (hi : i ≠ 0) (hrev : (t.pfds i).revents ≠ 0)
    {calls : List Evento} (hcalls : calls = [.called .read (t.fds i)] ∨ calls = []) :
    EmOrdem sock (.called .close (t.fds i) :: .called .shutdown (t.fds i) :: (calls ++ tr))
      (.next i) (pollPop t (t.fds i)) := by
  obtain ⟨hused, hrel, hold⟩ := h.pendente i (Nat.le_refl _) hrev
  obtain ⟨hguarda, hframe⟩ := h.guarda.pop hi hused
  have hp : Permitido tr (t.fds i) := ⟨h.guarda.mem_of_ne hi hused, hrel, hold⟩
  -- a read changes none of the sets
  have habertos : abertos (calls ++ tr) = abertos tr := by
    rcases hcalls with rfl | rfl <;> rfl
  have hrelatados : relatados (calls ++ tr) = relatados tr := by
    rcases hcalls with rfl | rfl <;> rfl
  have hnovos : novos (calls ++ tr) = novos tr := by
    rcases hcalls with rfl | rfl <;> rfl
  have hp' : Permitido (calls ++ tr) (t.fds i) :=
    ⟨by rw [habertos]; exact hp.aberto, by rw [hrelatados]; exact hrel, by rw [hnovos]; exact hold⟩
  have hlicito : Licito (calls ++ tr) := by
    rcases hcalls with rfl | rfl
    · exact ⟨hp, h.licito⟩
    · exact h.licito
  refine ⟨?_, ?_, ⟨hp'.aberto, hp'.relatado, hp'.antigo⟩, hp', hlicito⟩
  · simp only [abertos, habertos]
    exact hguarda
  · intro k hk hrev'
    have hsame := hframe k (pendente_next hk).ne'
    have hfds : (pollPop t (t.fds i)).fds k = t.fds k := congrArg PollFd.fd hsame
    rw [hsame] at hrev'
    rw [hfds]
    simp only [relatados, novos, hrelatados, hnovos]
    exact h.pendente k (Nat.le_of_lt (pendente_next hk)) hrev'

theorem emOrdem_laco (hsock : 0 ≤ sock) (h : Laco sock tr c t) : EmOrdem sock tr c t := by
  induction h with
  | start pfds => exact ⟨guarda_init hsock pfds, fun _ hi => hi.elim, trivial⟩
  | failed revents _ ih =>
    have hg := ih.guarda
    exact ⟨⟨hg.listening, hg.nfds, hg.distinct, hg.fds_eq, hg.sock_notMem⟩, fun _ hi => hi.elim,
      ih.licito⟩
  | poll revents unused _ ih => exact ih.poll revents unused
  | @turn tr t i accepted fresh _ ih =>
    rcases slotTurn_cases t i accepted with he | ⟨ha, _, hlt, he⟩ | ⟨hi, hrev, calls, hcalls, he⟩
    · rw [he]
      exact ih.skip
    · rw [he]
      exact ih.accept hsock ha hlt (fresh ha)
    · rw [he]
      exact ih.close hi hrev hcalls

/-! ## What follows -/

/-- A trace at the head of a loop: the calls on a socket come together and end with its
close, the last first. -/
inductive Blocos : List Evento → Prop where
  | nil : Blocos []
  | polled {tr : List Evento} (fds : Finset Int) (rest : Blocos tr) : Blocos (.polled fds :: tr)
  | accepted {tr : List Evento} (fd : Int) (rest : Blocos tr) : Blocos (.accepted fd :: tr)
  | served {tr : List Evento} (fd : Int) (rest : Blocos tr) :
      Blocos (.called .close fd :: .called .shutdown fd :: .called .read fd :: tr)
  | dropped {tr : List Evento} (fd : Int) (rest : Blocos tr) :
      Blocos (.called .close fd :: .called .shutdown fd :: tr)

/-- A socket is read at most once, and then closed. -/
theorem blocos_laco (h : Laco sock tr c t) : Blocos tr := by
  induction h with
  | start => exact .nil
  | failed _ _ ih => exact ih
  | poll _ _ _ ih => exact .polled _ ih
  | @turn tr t i accepted _ _ ih =>
    rcases slotTurn_cases t i accepted with he | ⟨_, _, _, he⟩ | ⟨_, _, calls, hcalls, he⟩
    · rw [he]
      exact ih
    · rw [he]
      exact .accepted _ ih
    · rw [he]
      rcases hcalls with rfl | rfl
      · exact .served _ ih
      · exact .dropped _ ih

/-- The table as the sockets see it: the listening socket is in slot 0, and the accepted
sockets that are not closed are in the others. -/
structure TabelaBoa (sock : Int) (tr : List Evento) (t : Tabela) : Prop where
  listening : (t.pfds 0).fd = sock
  nfds_eq : t.nfds = (Finset.univ.filter fun i => (t.pfds i).fd ≠ -1).card
  nfds_pos : 1 ≤ t.nfds
  nfds_le : t.nfds ≤ socketMaxPoll
  distinct : ∀ i j, (t.pfds i).fd ≠ -1 → (t.pfds i).fd = (t.pfds j).fd → i = j
  accepted : ∀ fd, fd ∈ abertos tr ↔ fd ≠ -1 ∧ ∃ i, i ≠ 0 ∧ (t.pfds i).fd = fd

theorem Guarda.tabelaBoa (hsock : 0 ≤ sock) (h : Guarda sock (abertos tr) t) :
    TabelaBoa sock tr t where
  listening := h.listening
  nfds_eq := h.nfds
  nfds_pos := by
    have hused : t.fds 0 ≠ -1 := by
      rw [h.listening]
      omega
    rw [h.nfds]
    exact Finset.card_pos.mpr ⟨0, mem_occupied.mpr hused⟩
  nfds_le := by
    rw [h.nfds]
    exact (Finset.card_le_univ _).trans_eq (Fintype.card_fin _)
  distinct := h.distinct
  accepted := fun fd => by
    constructor
    · intro hm
      have hkey : fd ∈ keys (-1) t.fds := by
        rw [h.fds_eq]
        exact Finset.mem_insert_of_mem hm
      obtain ⟨hne, i, hi⟩ := mem_keys.mp hkey
      refine ⟨hne, i, ?_, hi⟩
      rintro rfl
      exact h.sock_notMem (by rwa [← h.listening, hi])
    · rintro ⟨hne, i, hi, rfl⟩
      exact h.mem_of_ne hi hne

theorem Licito.permitido {after before : List Evento} {call : Chamada} {fd : Int}
    (h : Licito (after ++ .called call fd :: before)) : Permitido before fd := by
  induction after with
  | nil => exact h.1
  | cons ev after ih =>
    apply ih
    cases ev with
    | polled | accepted => exact h
    | called => exact h.2

/-- The turns of slots that have nothing to report. -/
theorem Laco.quiet (h : Laco sock tr (.slot i) t) (hq : ∀ j, i ≤ j → (t.pfds j).revents = 0) :
    Laco sock tr .poll t := by
  induction hn : socketMaxPoll - i.val generalizing i with
  | zero =>
    have := i.isLt
    omega
  | succ n ih =>
    have hturn : slotTurn t i (-1) = ([], t) := by simp [slotTurn, hq i (Nat.le_refl _)]
    have hnext := h.turn (-1) (by omega)
    rw [hturn, List.nil_append, Controle.next] at hnext
    split at hnext
    · refine ih hnext (fun j hj => hq j (Nat.le_of_succ_le hj)) ?_
      show socketMaxPoll - (i.val + 1) = n
      omega
    · exact hnext

/-- **The poll table.** In every run the table holds the listening socket and the accepted
sockets that are not closed, each once, and every call is on an open socket that the
last `poll` reported and that was not accepted since. -/
theorem poll_table (hsock : 0 ≤ sock) (h : Laco sock tr c t) :
    TabelaBoa sock tr t ∧ ∀ after call fd before, tr = after ++ .called call fd :: before →
      Permitido before fd := by
  have hordem := emOrdem_laco hsock h
  refine ⟨hordem.guarda.tabelaBoa hsock, ?_⟩
  rintro after call fd before rfl
  exact hordem.licito.permitido

end

/-- A table of an idle server with the listening socket 3. -/
def ociosa : Tabela := pollPush ⟨pollInit fun _ => ⟨0, 0, 0⟩, 0⟩ 3

/-- Data on slot `i` only. -/
def dadosEm (i : Fin socketMaxPoll) : Fin socketMaxPoll → UInt16 :=
  fun j => if j = i then pollIn else 0

/-- Socket 4 is accepted in one sweep, and read and closed in the next. -/
def quatroAtendido : List Evento :=
  [.called .close 4, .called .shutdown 4, .called .read 4, .polled {4}, .accepted 4, .polled {3}]

theorem poll_table_served : ∃ t, Laco 3 quatroAtendido (.slot 2) t ∧ TabelaBoa 3 quatroAtendido t ∧
    ∀ after call fd before, quatroAtendido = after ++ .called call fd :: before →
      Permitido before fd := by
  have h₀ : Laco 3 [] .poll ociosa := .start _
  have h₁ := ((Laco.poll (dadosEm 0) (by decide) h₀).turn 4 (by decide)).quiet (by decide +kernel)
  have h₂ := ((Laco.poll (dadosEm 1) (by decide +kernel) h₁).turn (-1) (by decide)).turn (-1)
    (by decide)
  exact ⟨_, h₂, poll_table (by decide) h₂⟩

end Crinha
