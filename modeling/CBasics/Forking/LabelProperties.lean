import CBasics.Forking.Basic

/-! The junction of `fork_intro`: in which orders of the steps the two processes take
themselves for what they are. -/

set_option autoImplicit false

namespace CBasics.Forking

open Library

variable {Pid : Type} [DecidableEq Pid] {setting : Setting Pid}

/-- The parent of a process is the one it has had from the start, until that ends. -/
def Tended (setting : Setting Pid) (events : List (Event Pid)) (processes : Processes Pid)
    (pid guardian : Pid) : Prop :=
  processes.parent pid = if .exited guardian ∈ events then setting.reaper else guardian

section Tended

variable {events : List (Event Pid)} {processes : Processes Pid} {pid guardian other : Pid}

theorem Tended.fork (tended : Tended setting events processes pid guardian) {child : Pid}
    (different : pid ≠ child) : Tended setting events (processes.fork other child) pid guardian :=
  (Processes.parent_fork_other different).trans tended

theorem Tended.said (tended : Tended setting events processes pid guardian) (who : Who)
    (text : List UInt8) : Tended setting (events ++ [.said who text]) processes pid guardian := by
  unfold Tended at tended ⊢
  rw [tended]
  simp

theorem Tended.exit (tended : Tended setting events processes pid guardian)
    (mortal : other ≠ setting.reaper) :
    Tended setting (events ++ [.exited other]) (processes.exit setting.reaper other) pid
      guardian := by
  unfold Tended at tended ⊢
  by_cases gone : .exited guardian ∈ events
  · rw [if_pos gone] at tended
    rw [if_pos (List.mem_append_left _ gone), Processes.parent_exit_other (tended ▸ mortal.symm),
      tended]
  · rw [if_neg gone] at tended
    by_cases now : other = guardian
    · rw [if_pos (by simp [now]), Processes.parent_exit_orphan (tended.trans now.symm)]
    · have still : .exited guardian ∉ events ++ [.exited other] := by
        simp [gone, Ne.symm now]
      rw [if_neg still, Processes.parent_exit_other (tended ▸ Ne.symm now), tended]

end Tended

/-- Who lives, and whose children the two processes are. -/
structure Invariant (setting : Setting Pid) (events : List (Event Pid)) (state : State Pid) :
    Prop where
  rooted : state.processes.Rooted setting.reaper
  immortal : .exited setting.reaper ∉ events
  saved : state.ppid = setting.guardian
  born : state.motherStage = .forking → state.childStage = none
  lives : ∀ pid, state.Runs setting pid → pid ∈ state.processes.live ∧ pid ≠ setting.reaper
  apart : state.motherStage ≠ .ended →
    state.childStage = some .testing ∨ state.childStage = some .ending →
      state.child ≠ setting.mother
  running : state.motherStage ≠ .ended → .exited setting.mother ∉ events ∧
    Tended setting events state.processes setting.mother setting.guardian
  child : state.childStage = some .testing →
    Tended setting events state.processes state.child setting.mother

section Steps

variable {events : List (Event Pid)} {state : State Pid}

theorem Invariant.fork (invariant : Invariant setting events state) {pid child : Pid}
    (lives : pid ∈ state.processes.live) (new : child ∉ state.processes.live) :
    Invariant setting events { state with processes := state.processes.fork pid child } where
  rooted := invariant.rooted.fork lives
  immortal := invariant.immortal
  saved := invariant.saved
  born := invariant.born
  lives := fun runner runs =>
    have ⟨alive, mortal⟩ := invariant.lives runner runs
    ⟨Finset.mem_insert_of_mem alive, mortal⟩
  apart := invariant.apart
  running := fun active => by
    obtain ⟨silent, tended⟩ := invariant.running active
    refine ⟨silent, tended.fork ?_⟩
    rintro rfl
    exact new (invariant.lives _ (.inl ⟨rfl, active⟩)).1
  child := fun testing => by
    refine (invariant.child testing).fork ?_
    rintro rfl
    exact new (invariant.lives _ (.inr ⟨rfl, .inl testing⟩)).1

/-- A process that does not run `fork_intro` any more, or never did, ends. -/
theorem Invariant.exit (invariant : Invariant setting events state) {pid : Pid}
    (mortal : pid ≠ setting.reaper) (other : ¬ state.Runs setting pid) :
    Invariant setting (events ++ [.exited pid]) (state.leave setting pid) where
  rooted := invariant.rooted.exit mortal
  immortal := by simp [invariant.immortal, mortal.symm]
  saved := invariant.saved
  born := invariant.born
  lives := fun runner runs => by
    obtain ⟨alive, immortal⟩ := invariant.lives runner runs
    refine ⟨Finset.mem_erase.mpr ⟨?_, alive⟩, immortal⟩
    rintro rfl
    exact other runs
  apart := invariant.apart
  running := fun active => by
    obtain ⟨silent, tended⟩ := invariant.running active
    have different : setting.mother ≠ pid := by
      rintro rfl
      exact other (.inl ⟨rfl, active⟩)
    exact ⟨by simp [silent, different], tended.exit mortal⟩
  child := fun testing => (invariant.child testing).exit mortal

theorem Invariant.said (invariant : Invariant setting events state) (who : Who)
    (text : List UInt8) : Invariant setting (events ++ [.said who text]) state where
  rooted := invariant.rooted
  immortal := by simp [invariant.immortal]
  saved := invariant.saved
  born := invariant.born
  lives := invariant.lives
  apart := invariant.apart
  running := fun active =>
    have ⟨silent, tended⟩ := invariant.running active
    ⟨by simp [silent], tended.said who text⟩
  child := fun testing => (invariant.child testing).said who text

/-- The two processes get further. -/
theorem Invariant.stages (invariant : Invariant setting events state) (motherStage : Stage)
    (childStage : Option Stage) (forked : motherStage ≠ .forking)
    (mother : motherStage ≠ .ended → state.motherStage ≠ .ended)
    (child : childStage = some .testing ∨ childStage = some .ending →
      state.childStage = some .testing ∨ state.childStage = some .ending)
    (testing : childStage = some .testing → state.childStage = some .testing) :
    Invariant setting events
      { state with motherStage := motherStage, childStage := childStage } where
  rooted := invariant.rooted
  immortal := invariant.immortal
  saved := invariant.saved
  born := fun forking => (forked forking).elim
  lives := fun runner runs =>
    invariant.lives runner (runs.imp (And.imp_right mother) (And.imp_right child))
  apart := fun active stage => invariant.apart (mother active) (child stage)
  running := fun active => invariant.running (mother active)
  child := fun stage => invariant.child (testing stage)

theorem Invariant.forked (invariant : Invariant setting events state)
    (forking : state.motherStage = .forking) {child : Pid}
    (new : child ∉ state.processes.live) :
    Invariant setting events
      { state with
        processes := state.processes.fork setting.mother child
        child := child
        motherStage := .testing
        childStage := some .testing } := by
  have active : state.motherStage ≠ .ended := by
    rw [forking]
    exact nofun
  obtain ⟨alive, mortal⟩ := invariant.lives setting.mother (.inl ⟨rfl, active⟩)
  obtain ⟨silent, tended⟩ := invariant.running active
  have different : setting.mother ≠ child := by
    rintro rfl
    exact new alive
  exact {
    rooted := invariant.rooted.fork alive
    immortal := invariant.immortal
    saved := invariant.saved
    born := nofun
    lives := fun runner runs => by
      rcases runs with ⟨rfl, -⟩ | ⟨rfl, -⟩
      · exact ⟨Finset.mem_insert_of_mem alive, mortal⟩
      · refine ⟨Finset.mem_insert_self _ _, ?_⟩
        rintro rfl
        exact new invariant.rooted.reaper
    apart := fun _ _ => different.symm
    running := fun _ => ⟨silent, tended.fork different⟩
    child := fun _ => by
      unfold Tended
      rw [if_neg silent]
      exact Processes.parent_fork_child .. }

theorem Invariant.motherCall (invariant : Invariant setting events state) {result : Option Pid}
    (admitted : Admits setting state (.mother result)) :
    Invariant setting (events ++ (Forking.motherCall setting state result).2)
      (Forking.motherCall setting state result).1 := by
  obtain ⟨active, fresh⟩ := admitted
  unfold Forking.motherCall
  cases stands : state.motherStage with
  | forking =>
      cases result with
      | none =>
          rw [List.append_nil]
          exact invariant.stages .ending _ nofun (fun _ => active) id id
      | some child =>
          rw [List.append_nil]
          exact invariant.forked stands (fresh child rfl)
  | testing =>
      have said := invariant.said .mother (label state setting.mother)
      exact said.stages .ending _ nofun (fun _ => active) id id
  | ending =>
      have ended : Invariant setting events { state with motherStage := .ended } :=
        invariant.stages .ended _ nofun (fun running => absurd rfl running) id id
      refine ended.exit setting.mortal ?_
      rintro (⟨-, running⟩ | ⟨same, stage⟩)
      · exact running rfl
      · exact invariant.apart active stage same.symm
  | ended => exact absurd stands active

theorem Invariant.childCall (invariant : Invariant setting events state)
    (active : state.childStage = some .testing ∨ state.childStage = some .ending) :
    Invariant setting (events ++ (Forking.childCall setting state).2)
      (Forking.childCall setting state).1 := by
  have forked : state.motherStage ≠ .forking := by
    intro forking
    rw [invariant.born forking] at active
    exact active.elim nofun nofun
  unfold Forking.childCall
  rcases active with testing | ending
  · simp only [testing]
    have said := invariant.said .child (label state state.child)
    exact said.stages _ (some .ending) forked id (fun _ => .inl testing) nofun
  · simp only [ending]
    have mortal := (invariant.lives state.child (.inr ⟨rfl, .inr ending⟩)).2
    have ended : Invariant setting events { state with childStage := some .ended } :=
      invariant.stages _ (some .ended) forked id (fun stage => stage.elim nofun nofun) nofun
    refine ended.exit mortal ?_
    rintro (⟨same, running⟩ | ⟨-, stage⟩)
    · exact invariant.apart running (.inr ending) same
    · exact stage.elim nofun nofun

end Steps

section Runs

variable {steps : List (State Pid × Move Pid)} {state : State Pid}

theorem run_invariant (run : (forkIntro setting).Run steps state) :
    Invariant setting ((forkIntro setting).trace steps) state := by
  apply run.traceInvariant (Invariant setting)
  case start =>
    rintro state ⟨rooted, alive, tended, saved, -, unborn⟩
    have runs : ∀ pid, state.Runs setting pid → pid = setting.mother := by
      rintro pid (⟨same, -⟩ | ⟨-, stage⟩)
      · exact same
      · rw [unborn] at stage
        exact stage.elim nofun nofun
    exact {
      rooted := rooted
      immortal := nofun
      saved := saved
      born := fun _ => unborn
      lives := fun pid active => by
        rw [runs pid active]
        exact ⟨alive, setting.mortal⟩
      apart := fun _ stage => by
        rw [unborn] at stage
        exact stage.elim nofun nofun
      running := fun _ => ⟨nofun, tended⟩
      child := fun testing => by
        rw [unborn] at testing
        cases testing }
  case keep =>
    intro events _ state move _ invariant admitted
    cases move with
    | mother result => exact invariant.motherCall admitted
    | child => exact invariant.childCall admitted
    | fork pid child =>
        obtain ⟨lives, new, -⟩ := admitted
        have forked := invariant.fork lives new
        rwa [← List.append_nil events] at forked
    | exit pid => exact invariant.exit admitted.2.1 admitted.2.2

end Runs

section Texts

variable {events : List (Event Pid)} {state : State Pid}

theorem label_eq_or (state : State Pid) (pid : Pid) :
    label state pid = parentText ∨ label state pid = childText := by
  unfold label
  split
  · exact .inl rfl
  · exact .inr rfl

theorem label_eq_iff (state : State Pid) (pid : Pid) :
    label state pid = parentText ↔ state.processes.parent pid = state.ppid := by
  have different : childText ≠ parentText := by decide
  unfold label
  by_cases same : state.processes.parent pid = state.ppid
  · rw [if_pos same]
    exact ⟨fun _ => same, fun _ => rfl⟩
  · rw [if_neg same]
    exact ⟨fun equal => (different equal).elim, fun equal => (same equal).elim⟩

/-- The mother takes itself for the parent as long as its own parent is there. -/
theorem Invariant.label_mother (invariant : Invariant setting events state)
    (active : state.motherStage ≠ .ended) :
    label state setting.mother = parentText ↔ .exited setting.guardian ∉ events := by
  obtain ⟨-, tended⟩ := invariant.running active
  rw [label_eq_iff, invariant.saved, tended]
  by_cases gone : .exited setting.guardian ∈ events
  · rw [if_pos gone]
    refine ⟨fun same => ?_, fun still => (still gone).elim⟩
    rw [← same] at gone
    exact (invariant.immortal gone).elim
  · rw [if_neg gone]
    exact ⟨fun _ => gone, fun _ => rfl⟩

/-- The child takes itself for the parent once it is an orphan whose new parent is the old
one of its mother. -/
theorem Invariant.label_child (invariant : Invariant setting events state)
    (testing : state.childStage = some .testing) :
    label state state.child = parentText ↔
      .exited setting.mother ∈ events ∧ setting.guardian = setting.reaper := by
  rw [label_eq_iff, invariant.saved, invariant.child testing]
  by_cases gone : .exited setting.mother ∈ events
  · rw [if_pos gone]
    exact ⟨fun same => ⟨gone, same.symm⟩, fun ended => ended.2.symm⟩
  · rw [if_neg gone]
    exact ⟨fun same => (setting.strange same.symm).elim, fun ended => (gone ended.1).elim⟩

theorem length_emits_le (setting : Setting Pid) (state : State Pid) (move : Move Pid) :
    ((forkIntro setting).emits state move).length ≤ 1 := by
  cases move with
  | mother result =>
      change (motherCall setting state result).2.length ≤ 1
      unfold motherCall
      cases state.motherStage with
      | forking => cases result <;> exact Nat.zero_le 1
      | testing | ending => exact Nat.le_refl 1
      | ended => exact Nat.zero_le 1
  | child =>
      change (childCall setting state).2.length ≤ 1
      unfold childCall
      split
      · exact Nat.le_refl 1
      · exact Nat.le_refl 1
      · exact Nat.zero_le 1
  | fork pid child => exact Nat.zero_le 1
  | exit pid => exact Nat.le_refl 1

/-- The process is past its junction. -/
def Past (state : State Pid) : Who → Prop
  | .mother => state.motherStage = .ending ∨ state.motherStage = .ended
  | .child => state.childStage = some .ending ∨ state.childStage = some .ended

theorem Past.next {who : Who} (past : Past state who)
    (born : state.motherStage = .forking → state.childStage = none) (move : Move Pid) :
    Past ((forkIntro setting).next state move) who := by
  cases move with
  | mother result =>
      change Past (motherCall setting state result).1 who
      unfold motherCall
      cases who with
      | mother => rcases past with stands | stands <;> simp [stands, Past]
      | child =>
          cases stands : state.motherStage with
          | forking =>
              change _ ∨ _ at past
              rw [born stands] at past
              exact past.elim nofun nofun
          | testing | ending | ended => exact past
  | child =>
      change Past (childCall setting state).1 who
      unfold childCall
      cases who with
      | mother => split <;> exact past
      | child => rcases past with stands | stands <;> simp [stands, Past]
  | fork pid child => cases who <;> exact past
  | exit pid => cases who <;> exact past

/-- A process greets at its test and is past it then. -/
theorem said_of_mem_emits {move : Move Pid} {who : Who} {text : List UInt8}
    (said : .said who text ∈ (forkIntro setting).emits state move) :
    Past ((forkIntro setting).next state move) who ∧
      (who = .mother ∧ state.motherStage = .testing ∧ text = label state setting.mother ∨
        who = .child ∧ state.childStage = some .testing ∧ text = label state state.child) := by
  cases move with
  | mother result =>
      change _ ∈ (motherCall setting state result).2 at said
      change Past (motherCall setting state result).1 _ ∧ _
      unfold motherCall at said ⊢
      cases stands : state.motherStage with
      | testing =>
          rw [stands] at said
          obtain ⟨rfl, rfl⟩ := Event.said.inj (List.mem_singleton.mp said)
          exact ⟨.inl rfl, .inl ⟨rfl, rfl, rfl⟩⟩
      | forking => cases result <;> simp [stands] at said
      | ending => simp [stands] at said
      | ended => simp [stands] at said
  | child =>
      change _ ∈ (childCall setting state).2 at said
      change Past (childCall setting state).1 _ ∧ _
      unfold childCall at said ⊢
      split at said
      case h_1 testing =>
        obtain ⟨rfl, rfl⟩ := Event.said.inj (List.mem_singleton.mp said)
        exact ⟨.inl (by simp), .inr ⟨rfl, testing, rfl⟩⟩
      case h_2 => simp at said
      case h_3 => simp at said
  | fork pid child => cases said
  | exit pid => cases List.mem_singleton.mp said

theorem past_of_said {steps : List (State Pid × Move Pid)}
    (run : (forkIntro setting).Run steps state) {who : Who} {text : List UInt8}
    (said : .said who text ∈ (forkIntro setting).trace steps) : Past state who := by
  have told := run.traceInvariant fun events state =>
    ∀ who text, .said who text ∈ events → Past state who
  refine told ?start ?keep who text said
  case start => exact fun _ _ _ _ => nofun
  case keep =>
    intro events steps state move run past _ who text said
    rcases List.mem_append.mp said with earlier | now
    · exact (past who text earlier).next (run_invariant run).born move
    · exact (said_of_mem_emits now).1

end Texts

def shell : Setting Nat where
  mother := 3149
  guardian := 3148
  reaper := 1
  mortal := by decide
  strange := by decide

def asked : State Nat where
  processes := ⟨{1, 3148, 3149}, fun pid => if pid = 3149 then 3148 else 1⟩
  ppid := 3148
  child := 0
  motherStage := .forking
  childStage := none

/-- The shell ends between the fork and the junction. -/
def orphanMoves : List (Move Nat) := [.mother (some 3150), .exit 3148, .mother none, .child]

theorem asked_initial : (forkIntro shell).initial asked :=
  ⟨⟨by decide, by decide⟩, by decide, rfl, rfl, rfl, rfl⟩

theorem orphan_run : (forkIntro shell).Run ((forkIntro shell).follow asked orphanMoves)
    ((forkIntro shell).finish asked orphanMoves) :=
  .of_admitted asked_initial (by decide)

end CBasics.Forking
