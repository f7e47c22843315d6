import CBasics.Kernel
import CBasics.Library.CString

/-! The reading thread of the telnet client. -/

set_option autoImplicit false

namespace CBasics.TelnetClient

open Library

def maxBytes : Nat := 2048

/-- The write of the terminator into `read_buf`, a text printed to standard
output, and the end of the process. -/
inductive ReadEvent where
  | terminated (index : Nat)
  | printed (text : List Byte)
  | exited (success : Bool)
  deriving DecidableEq

/-- `thread_read` under the given results of `recv`; after the last one it
blocks. -/
def threadRead : List RecvResult → List ReadEvent
  | [] => []
  | result :: rest =>
      let readBuf := result.store (List.replicate maxBytes 0)
      let bytesRead := result.count
      if bytesRead < 0 then [.exited false]
      else if bytesRead = 0 then [.printed (ascii "Server disconnected\n"), .exited true]
      else
        let terminated := readBuf.set bytesRead.toNat 0
        .terminated bytesRead.toNat :: .printed (cString terminated) :: threadRead rest

def printedText (events : List ReadEvent) : List Byte :=
  events.flatMap fun
    | .printed text => text
    | _ => []

theorem cString_terminated (chunk : List Byte) :
    cString (((RecvResult.bytes chunk).store (List.replicate maxBytes 0)).set chunk.length 0) =
      cString chunk := by
  have same : ((RecvResult.bytes chunk).store (List.replicate maxBytes 0)).set chunk.length 0 =
      chunk ++ List.replicate (maxBytes - chunk.length) 0 := by
    rw [RecvResult.store, List.set_append_right _ _ (Nat.le_refl _), Nat.sub_self,
      List.drop_replicate]
    cases maxBytes - chunk.length <;> rfl
  rw [same]
  exact cString_append_zeros chunk fun byte member => List.eq_of_mem_replicate member

def chunkEvents (chunk : List Byte) : List ReadEvent :=
  [.terminated chunk.length, .printed (cString chunk)]

theorem threadRead_chunks {chunks : List (List Byte)} (rest : List RecvResult)
    (nonempty : ∀ chunk ∈ chunks, 1 ≤ chunk.length) :
    threadRead (chunks.map .bytes ++ rest) = chunks.flatMap chunkEvents ++ threadRead rest := by
  induction chunks with
  | nil => rfl
  | cons chunk later ih =>
      obtain ⟨here, nonemptyLater⟩ := List.forall_mem_cons.mp nonempty
      have nonneg : ¬ (chunk.length : Int) < 0 := by omega
      have some : (chunk.length : Int) ≠ 0 := by omega
      simp only [List.map_cons, List.cons_append, threadRead, RecvResult.count, if_neg nonneg,
        if_neg some, Int.toNat_natCast, cString_terminated, ih nonemptyLater, List.flatMap_cons,
        chunkEvents, List.nil_append]

theorem printedText_chunks (chunks : List (List Byte)) :
    printedText (chunks.flatMap chunkEvents) = printed chunks := by
  simp only [printedText, printed, List.flatMap_assoc]
  exact List.flatMap_congr fun chunk _ => List.append_nil _

theorem printedText_threadRead {chunks : List (List Byte)}
    (nonempty : ∀ chunk ∈ chunks, 1 ≤ chunk.length) :
    printedText (threadRead (chunks.map .bytes)) = printed chunks := by
  have split := threadRead_chunks [] nonempty
  rw [List.append_nil] at split
  rw [split, threadRead, List.append_nil, printedText_chunks]

end CBasics.TelnetClient
