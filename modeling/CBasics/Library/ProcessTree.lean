import Mathlib.Data.Finset.Erase
import Mathlib.Data.Finset.Insert

/-! Processes and their parents. A process whose parent ends becomes a child of the
reaper, which never ends. -/

set_option autoImplicit false

namespace CBasics.Library

structure Processes (Pid : Type) where
  live : Finset Pid
  parent : Pid → Pid

namespace Processes

variable {Pid : Type} [DecidableEq Pid]

def fork (processes : Processes Pid) (pid child : Pid) : Processes Pid where
  live := insert child processes.live
  parent := Function.update processes.parent child pid

def exit (processes : Processes Pid) (reaper pid : Pid) : Processes Pid where
  live := processes.live.erase pid
  parent other := if processes.parent other = pid then reaper else processes.parent other

/-- Every process that lives has a parent that lives. -/
structure Rooted (processes : Processes Pid) (reaper : Pid) : Prop where
  reaper : reaper ∈ processes.live
  parents : ∀ pid ∈ processes.live, processes.parent pid ∈ processes.live

variable {processes : Processes Pid} {reaper pid child other : Pid}

@[simp] theorem parent_fork_child (processes : Processes Pid) (pid child : Pid) :
    (processes.fork pid child).parent child = pid := Function.update_self ..

theorem parent_fork_other (different : other ≠ child) :
    (processes.fork pid child).parent other = processes.parent other :=
  Function.update_of_ne different ..

theorem parent_exit_orphan (orphaned : processes.parent other = pid) :
    (processes.exit reaper pid).parent other = reaper := if_pos orphaned

theorem parent_exit_other (cared : processes.parent other ≠ pid) :
    (processes.exit reaper pid).parent other = processes.parent other := if_neg cared

theorem Rooted.fork (rooted : processes.Rooted reaper) (lives : pid ∈ processes.live) :
    (processes.fork pid child).Rooted reaper where
  reaper := Finset.mem_insert_of_mem rooted.reaper
  parents other member := by
    by_cases new : other = child
    · rw [new, parent_fork_child]
      exact Finset.mem_insert_of_mem lives
    · rw [parent_fork_other new]
      have lived := Finset.mem_of_mem_insert_of_ne member new
      exact Finset.mem_insert_of_mem (rooted.parents other lived)

theorem Rooted.exit (rooted : processes.Rooted reaper) (different : pid ≠ reaper) :
    (processes.exit reaper pid).Rooted reaper where
  reaper := Finset.mem_erase.mpr ⟨different.symm, rooted.reaper⟩
  parents other member := by
    by_cases orphaned : processes.parent other = pid
    · rw [parent_exit_orphan orphaned]
      exact Finset.mem_erase.mpr ⟨different.symm, rooted.reaper⟩
    · rw [parent_exit_other orphaned]
      exact Finset.mem_erase.mpr ⟨orphaned, rooted.parents other (Finset.mem_of_mem_erase member)⟩

end Processes

end CBasics.Library
