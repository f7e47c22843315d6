import CBasics.SocketSetup.Basic
import Mathlib.Data.Finset.Union
import Mathlib.Data.List.Basic

/-! The set-ups that never close a descriptor: `server` keeps what it could not bind, and
the raw server, which loses the descriptor it has made, does not get to serve at all. -/

set_option autoImplicit false

namespace CBasics.SocketSetup

/-- The descriptors that were made for these entries. -/
def made (opens : ListenerEntry → Bool) (entries : List ListenerEntry) : Finset Int :=
  ((entries.filter opens).map (·.socket)).toFinset

/-- The entries up to the first that ends the loop. -/
def upTo (decides : ListenerEntry → Bool) (entries : List ListenerEntry) : List ListenerEntry :=
  entries.take (entries.findIdx decides + 1)

/-- What a loop leaves that closes nothing: every descriptor that it has made is open, and
the first entry that decides says how it ends. -/
structure KeepsAll (opens decides : ListenerEntry → Bool) (verdict : ListenerEntry → Ending)
    (entries : List ListenerEntry) (sockets : Sockets) (left : Left) : Prop where
  openFds : left.sockets.openFds = sockets.openFds ∪ made opens (upTo decides entries)
  tried : left.tried = (upTo decides entries).length
  ending : left.ending = ((entries.find? decides).map verdict).getD .exhausted

section KeepsAll

variable {opens decides : ListenerEntry → Bool} {verdict : ListenerEntry → Ending}
  {entry : ListenerEntry} {rest : List ListenerEntry} {sockets between : Sockets} {left : Left}

theorem made_cons (opens : ListenerEntry → Bool) (entry : ListenerEntry)
    (rest : List ListenerEntry) : made opens (entry :: rest) =
      if opens entry then insert entry.socket (made opens rest) else made opens rest := by
  by_cases opened : opens entry
  · rw [if_pos opened, made, List.filter_cons_of_pos opened, List.map_cons, List.toFinset_cons,
      made]
  · rw [if_neg opened, made, List.filter_cons_of_neg opened, made]

theorem keepsAll_nil : KeepsAll opens decides verdict [] sockets ⟨.exhausted, sockets, 0, []⟩ where
  openFds := (Finset.union_empty _).symm
  tried := rfl
  ending := rfl

/-- The loop goes on behind an entry that does not decide. -/
theorem KeepsAll.after (keeps : KeepsAll opens decides verdict rest between left)
    (passes : decides entry = false)
    (opened : between.openFds =
      if opens entry then insert entry.socket sockets.openFds else sockets.openFds)
    (errors : List String) :
    KeepsAll opens decides verdict (entry :: rest) sockets (left.after errors) where
  openFds := by
    have further : upTo decides (entry :: rest) = entry :: upTo decides rest := by
      rw [upTo, List.findIdx_cons, passes]
      rfl
    show left.sockets.openFds = _
    rw [keeps.openFds, opened, further, made_cons]
    by_cases opened : opens entry
    · rw [if_pos opened, if_pos opened, Finset.insert_union, Finset.union_insert]
    · rw [if_neg opened, if_neg opened]
  tried := by
    have further : upTo decides (entry :: rest) = entry :: upTo decides rest := by
      rw [upTo, List.findIdx_cons, passes]
      rfl
    rw [further]
    exact congrArg (· + 1) keeps.tried
  ending := by
    rw [List.find?_cons, passes]
    exact keeps.ending

theorem keepsAll_decided (decided : decides entry = true) (opened : opens entry = true)
    (openFds : left.sockets.openFds = insert entry.socket sockets.openFds) (tried : left.tried = 1)
    (ending : left.ending = verdict entry) :
    KeepsAll opens decides verdict (entry :: rest) sockets left := by
  have alone : upTo decides (entry :: rest) = [entry] := by
    rw [upTo, List.findIdx_cons, decided]
    rfl
  refine ⟨?_, by rw [alone, tried]; rfl, ?_⟩
  · rw [openFds, alone, made_cons, if_pos opened, Finset.union_insert]
    exact congrArg (insert _) (Finset.union_empty _).symm
  · rw [List.find?_cons, decided, ending]
    rfl

end KeepsAll

def ListenerEntry.opens (entry : ListenerEntry) : Bool := entry.socket != -1

/-- `server` stops here because the option cannot be set, or breaks with the descriptor. -/
def ListenerEntry.decides (entry : ListenerEntry) : Bool :=
  entry.opens && (entry.setsockopt == -1 || entry.bind != -1)

def ListenerEntry.verdict (entry : ListenerEntry) : Ending :=
  if entry.setsockopt = -1 then .exited else .broke entry.socket

theorem serverLoop_keepsAll (entries : List ListenerEntry) (sockets : Sockets) :
    KeepsAll ListenerEntry.opens ListenerEntry.decides ListenerEntry.verdict entries sockets
      (serverLoop entries sockets) := by
  induction entries generalizing sockets with
  | nil => exact keepsAll_nil
  | cons entry rest ih =>
      rw [serverLoop]
      by_cases failed : entry.socket = -1
      · rw [if_pos failed]
        exact (ih sockets).after (by simp [ListenerEntry.decides, ListenerEntry.opens, failed])
          (by simp [ListenerEntry.opens, failed]) _
      · rw [if_neg failed]
        have opens : entry.opens = true := by simpa [ListenerEntry.opens] using failed
        by_cases unset : entry.setsockopt = -1
        · simp only [if_pos unset]
          exact keepsAll_decided (by simp [ListenerEntry.decides, opens, unset]) opens rfl rfl
            (by simp [ListenerEntry.verdict, unset])
        · simp only [if_neg unset]
          by_cases unbound : entry.bind = -1
          · simp only [if_pos unbound]
            exact (ih (sockets.socket entry.socket)).after
              (by simp [ListenerEntry.decides, unset, unbound]) (by simp [opens]) _
          · simp only [if_neg unbound]
            exact keepsAll_decided (by simp [ListenerEntry.decides, opens, unbound]) opens rfl rfl
              (by simp [ListenerEntry.verdict, unset])

theorem serverLoop_bound {entries : List ListenerEntry} {sockets : Sockets} {fd : Int}
    (broke : (serverLoop entries sockets).ending = .broke fd) :
    fd ∈ (serverLoop entries sockets).sockets.bound := by
  induction entries generalizing sockets with
  | nil => cases broke
  | cons entry rest ih =>
      rw [serverLoop] at broke ⊢
      by_cases failed : entry.socket = -1
      · rw [if_pos failed] at broke ⊢
        exact ih broke
      · rw [if_neg failed] at broke ⊢
        by_cases unset : entry.setsockopt = -1
        · simp only [if_pos unset] at broke
          cases broke
        · simp only [if_neg unset] at broke ⊢
          by_cases unbound : entry.bind = -1
          · simp only [if_pos unbound] at broke ⊢
            exact ih broke
          · simp only [if_neg unbound] at broke ⊢
            obtain rfl := Ending.broke.inj broke
            exact Finset.mem_insert_self _ _

theorem KeepsAll.decided {opens decides : ListenerEntry → Bool} {verdict : ListenerEntry → Ending}
    {entries : List ListenerEntry} {sockets : Sockets} {left : Left}
    (keeps : KeepsAll opens decides verdict entries sockets left) (fd : Int) :
    left.ending = .broke fd ↔ (entries.find? decides).map verdict = some (.broke fd) := by
  rw [keeps.ending]
  cases (entries.find? decides).map verdict with
  | none => exact ⟨nofun, nofun⟩
  | some ending => exact ⟨congrArg some, Option.some.inj⟩

/-- For every list and all answers: `server` comes to `sigaction` with the descriptor of
the first address that `socket` and `bind` accept, bound and listening, unless an option
cannot be set before that or `listen` fails. Every descriptor made up to there is still
open. -/
theorem server_keepsAll (entries : List ListenerEntry) (listen : Int) (sockets : Sockets) :
    (server entries listen sockets).sockets.openFds =
        sockets.openFds ∪ made ListenerEntry.opens (upTo ListenerEntry.decides entries) ∧
      (server entries listen sockets).tried = (upTo ListenerEntry.decides entries).length ∧
      (∀ fd, (server entries listen sockets).outcome = .uses fd ↔ listen ≠ -1 ∧
        (entries.find? ListenerEntry.decides).map ListenerEntry.verdict = some (.broke fd)) ∧
      ∀ fd, (server entries listen sockets).outcome = .uses fd →
        fd ∈ (server entries listen sockets).sockets.bound ∧
          fd ∈ (server entries listen sockets).sockets.listening := by
  have keeps := serverLoop_keepsAll entries sockets
  cases ending : (serverLoop entries sockets).ending with
  | exited =>
      simp only [server, ending]
      refine ⟨keeps.openFds, keeps.tried, fun fd => ⟨nofun, ?_⟩, nofun⟩
      rintro ⟨-, decided⟩
      exact nomatch ending.symm.trans ((keeps.decided fd).mpr decided)
  | exhausted =>
      simp only [server, ending]
      refine ⟨keeps.openFds, keeps.tried, fun fd => ⟨nofun, ?_⟩, nofun⟩
      rintro ⟨-, decided⟩
      exact nomatch ending.symm.trans ((keeps.decided fd).mpr decided)
  | broke sockfd =>
      simp only [server, ending]
      by_cases refused : listen = -1
      · rw [if_pos refused]
        exact ⟨keeps.openFds, keeps.tried,
          fun fd => ⟨nofun, fun ⟨heard, _⟩ => (heard refused).elim⟩, nofun⟩
      · rw [if_neg refused]
        refine ⟨keeps.openFds, keeps.tried, fun fd => ?_, ?_⟩
        · rw [← keeps.decided fd, ending]
          constructor
          · rintro ⟨⟩
            exact ⟨refused, rfl⟩
          · rintro ⟨-, ⟨⟩⟩
            rfl
        · rintro _ ⟨⟩
          exact ⟨serverLoop_bound ending, Finset.mem_insert_self _ _⟩

/-- `socket` has made a descriptor. -/
def ListenerEntry.makes (entry : ListenerEntry) : Bool := decide (0 ≤ entry.socket)

/-- The raw server breaks here, with descriptor 0, that it has tried to bind. -/
def ListenerEntry.breaks (entry : ListenerEntry) : Bool :=
  entry.makes && decide (0 ≤ entry.bind)

theorem rawLoop_keepsAll (entries : List ListenerEntry) (sockets : Sockets) :
    KeepsAll ListenerEntry.makes ListenerEntry.breaks (fun _ => .broke 0) entries sockets
      (rawLoop entries sockets) := by
  induction entries generalizing sockets with
  | nil => exact keepsAll_nil
  | cons entry rest ih =>
      rw [rawLoop]
      by_cases failed : entry.socket < 0
      · simp only [if_pos failed, ne_eq, Int.one_ne_zero, not_false_eq_true, if_true]
        exact (ih sockets).after (by simp [ListenerEntry.breaks, ListenerEntry.makes, failed])
          (by simp [ListenerEntry.makes, failed]) _
      · simp only [if_neg failed, ne_eq, not_true_eq_false, if_false]
        have makes : entry.makes = true := by simpa [ListenerEntry.makes] using failed
        by_cases unbound : entry.bind < 0
        · simp only [if_pos unbound]
          exact (ih (sockets.socket entry.socket)).after
            (by simp [ListenerEntry.breaks, unbound]) (by simp [makes]) _
        · simp only [if_neg unbound]
          have decides : entry.breaks = true := by
            simpa [ListenerEntry.breaks, makes] using unbound
          exact keepsAll_decided decides makes rfl rfl rfl

theorem rawLoop_bound (entries : List ListenerEntry) (sockets : Sockets) :
    (rawLoop entries sockets).sockets.bound ⊆ insert 0 sockets.bound ∧
      (rawLoop entries sockets).sockets.listening = sockets.listening := by
  induction entries generalizing sockets with
  | nil => exact ⟨Finset.subset_insert _ _, rfl⟩
  | cons entry rest ih =>
      rw [rawLoop]
      by_cases failed : entry.socket < 0
      · simp only [if_pos failed, ne_eq, Int.one_ne_zero, not_false_eq_true, if_true]
        exact ih sockets
      · simp only [if_neg failed, ne_eq, not_true_eq_false, if_false]
        by_cases unbound : entry.bind < 0
        · simp only [if_pos unbound]
          exact ih (sockets.socket entry.socket)
        · simp only [if_neg unbound]
          exact ⟨subset_rfl, rfl⟩

theorem rawMain_sockets (entries : List ListenerEntry) (listen : Int) (sockets : Sockets) :
    (rawMain entries listen sockets).outcome = .stops 1 ∧
      (rawMain entries listen sockets).sockets.openFds =
        sockets.openFds ∪ made ListenerEntry.makes (upTo ListenerEntry.breaks entries) ∧
      (rawMain entries listen sockets).sockets.bound ⊆ insert 0 sockets.bound ∧
      (rawMain entries listen sockets).sockets.listening ⊆ insert 0 sockets.listening := by
  have keeps := rawLoop_keepsAll entries sockets
  obtain ⟨bound, listening⟩ := rawLoop_bound entries sockets
  have quiet : (rawLoop entries sockets).sockets.listening ⊆ insert 0 sockets.listening := by
    rw [listening]
    exact Finset.subset_insert _ _
  cases ending : (rawLoop entries sockets).ending with
  | exited =>
      simp only [rawMain, getListener, ending]
      exact ⟨trivial, keeps.openFds, bound, quiet⟩
  | exhausted =>
      simp only [rawMain, getListener, ending]
      exact ⟨trivial, keeps.openFds, bound, quiet⟩
  | broke listener =>
      obtain rfl : listener = 0 := by
        have decided := (keeps.decided listener).mp ending
        obtain ⟨_, -, same⟩ := Option.map_eq_some_iff.mp decided
        exact (Ending.broke.inj same).symm
      by_cases refused : listen < 0
      · simp only [rawMain, getListener, ending, if_pos refused]
        exact ⟨trivial, keeps.openFds, bound, quiet⟩
      · simp only [rawMain, getListener, ending, if_neg refused, Int.le_refl, if_true]
        refine ⟨trivial, keeps.openFds, bound, ?_⟩
        show insert 0 (rawLoop entries sockets).sockets.listening ⊆ _
        rw [listening]

/-- A descriptor that `socket` makes while these are open is none of them. -/
theorem notMem_of_made {entries : List ListenerEntry} {sockets : Sockets}
    (mayOpen : ∀ entry ∈ entries, sockets.MayOpen entry.socket) {fd : Int}
    (new : fd ∈ made ListenerEntry.makes (upTo ListenerEntry.breaks entries)) :
    fd ∉ sockets.openFds := by
  obtain ⟨entry, inFront, rfl⟩ := List.mem_map.mp (List.mem_toFinset.mp new)
  obtain ⟨tried, makes⟩ := List.mem_filter.mp inFront
  have nonneg : 0 ≤ entry.socket := of_decide_eq_true makes
  exact (mayOpen entry (List.mem_of_mem_take tried)).new (by omega)

/-- Whatever `getaddrinfo` has found and all calls return, the raw server ends before its
loop; it binds and listens on descriptor 0 at most, and every descriptor that `socket` has
made stays open. Where 0 is open from the start, none of these is ever bound or listens. -/
theorem rawMain_neverServes (entries : List ListenerEntry) (listen : Int) (sockets : Sockets) :
    (rawMain entries listen sockets).outcome = .stops 1 ∧
      (rawMain entries listen sockets).sockets.openFds =
        sockets.openFds ∪ made ListenerEntry.makes (upTo ListenerEntry.breaks entries) ∧
      (rawMain entries listen sockets).sockets.bound ⊆ insert 0 sockets.bound ∧
      (rawMain entries listen sockets).sockets.listening ⊆ insert 0 sockets.listening ∧
      (0 ∈ sockets.openFds → (∀ entry ∈ entries, sockets.MayOpen entry.socket) →
        sockets.bound ⊆ sockets.openFds → sockets.listening ⊆ sockets.openFds →
        ∀ fd ∈ made ListenerEntry.makes (upTo ListenerEntry.breaks entries),
          fd ∉ (rawMain entries listen sockets).sockets.bound ∧
            fd ∉ (rawMain entries listen sockets).sockets.listening) := by
  obtain ⟨stops, openFds, bound, listening⟩ := rawMain_sockets entries listen sockets
  refine ⟨stops, openFds, bound, listening, ?_⟩
  intro zeroOpen mayOpen boundOpen listeningOpen fd new
  have fresh := notMem_of_made mayOpen new
  constructor
  · intro member
    rcases Finset.mem_insert.mp (bound member) with rfl | before
    · exact fresh zeroOpen
    · exact fresh (boundOpen before)
  · intro member
    rcases Finset.mem_insert.mp (listening member) with rfl | before
    · exact fresh zeroOpen
    · exact fresh (listeningOpen before)

/-- One address, on which every call succeeds, in a process with the standard streams. -/
theorem rawMain_neverServes_streams :
    3 ∉ (rawMain [⟨3, 0, 0⟩] 0 ⟨{0, 1, 2}, ∅, ∅, ∅⟩).sockets.bound ∧
      3 ∉ (rawMain [⟨3, 0, 0⟩] 0 ⟨{0, 1, 2}, ∅, ∅, ∅⟩).sockets.listening :=
  (rawMain_neverServes [⟨3, 0, 0⟩] 0 ⟨{0, 1, 2}, ∅, ∅, ∅⟩).2.2.2.2 (by decide) (by decide)
    (by decide) (by decide) 3 (by decide)

end CBasics.SocketSetup
