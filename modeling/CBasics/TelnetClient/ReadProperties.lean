import CBasics.TelnetClient.Basic

/-! The reading thread over any number of chunks. A chunk that fills the buffer
leaves no place for the terminator. -/

set_option autoImplicit false

namespace CBasics.TelnetClient

open Library

/-- What the thread does last, when `recv` fails or the stream has ended. -/
def farewell : RecvResult → List ReadEvent
  | .error => [.exited false]
  | .bytes _ => [.printed (ascii "Server disconnected\n"), .exited true]

/-- `recv` and the terminator stay within `read_buf`, and what is printed before
the last message or the exit is the text of all chunks. -/
structure HandlesChunks (chunks : List (List Byte)) (last : RecvResult)
    (events : List ReadEvent) : Prop where
  stored : ∀ chunk ∈ chunks,
    ((RecvResult.bytes chunk).store (List.replicate maxBytes 0)).length = maxBytes
  terminated : ∀ index, .terminated index ∈ events → index < maxBytes
  text : ∃ body, events = body ++ farewell last ∧ printedText body = chunks.flatten

theorem threadRead_last {last : RecvResult} (ends : last = .error ∨ last = .bytes []) :
    threadRead [last] = farewell last := by
  rcases ends with rfl | rfl
  · rfl
  · rfl

theorem terminated_mem_chunks {chunks : List (List Byte)} {last : RecvResult} {index : Nat} :
    .terminated index ∈ chunks.flatMap chunkEvents ++ farewell last ↔
      ∃ chunk ∈ chunks, chunk.length = index := by
  have notLast : ReadEvent.terminated index ∉ farewell last := by
    cases last <;> simp [farewell]
  simp [chunkEvents, notLast, eq_comm]

/-- For all chunks that `recv` may deliver and either end: the reader handles them
if and only if none fills the buffer. -/
theorem handlesChunks_iff {chunks : List (List Byte)} {last : RecvResult}
    (ends : last = .error ∨ last = .bytes [])
    (sizes : ∀ chunk ∈ chunks, 1 ≤ chunk.length ∧ chunk.length ≤ maxBytes)
    (noNul : ∀ chunk ∈ chunks, 0 ∉ chunk) :
    HandlesChunks chunks last (threadRead (chunks.map .bytes ++ [last])) ↔
      ∀ chunk ∈ chunks, chunk.length < maxBytes := by
  rw [threadRead_chunks [last] fun chunk member => (sizes chunk member).1, threadRead_last ends]
  constructor
  · intro handles chunk member
    exact handles.terminated _ (terminated_mem_chunks.mpr ⟨chunk, member, rfl⟩)
  · intro small
    constructor
    case stored =>
      intro chunk member
      have fits : (RecvResult.bytes chunk).Fits (List.replicate maxBytes (0 : Byte)).length := by
        rw [List.length_replicate]
        exact (sizes chunk member).2
      rw [RecvResult.length_store fits, List.length_replicate]
    case terminated =>
      intro index written
      obtain ⟨chunk, member, rfl⟩ := terminated_mem_chunks.mp written
      exact small chunk member
    case text => exact ⟨_, rfl, (printedText_chunks chunks).trans (printed_eq_flatten noNul)⟩

theorem handlesChunks_two :
    HandlesChunks [ascii "User 5: ", ascii "hi\n"] (.bytes [])
      (threadRead ([ascii "User 5: ", ascii "hi\n"].map .bytes ++ [.bytes []])) :=
  (handlesChunks_iff (.inr rfl) (by decide) (by decide)).mpr (by decide)

/-- 2048 bytes: the terminator is written behind the buffer. -/
theorem not_handlesChunks_full :
    ¬ HandlesChunks [List.replicate 2048 97] .error
      (threadRead ([List.replicate 2048 97].map .bytes ++ [.error])) := by
  intro handles
  have nonempty : ∀ chunk ∈ [List.replicate 2048 (97 : Byte)], 1 ≤ chunk.length := by
    intro chunk member
    rw [List.mem_singleton.mp member, List.length_replicate]
    decide
  rw [threadRead_chunks [.error] nonempty, threadRead_last (.inl rfl)] at handles
  have bound := handles.terminated 2048
    (terminated_mem_chunks.mpr ⟨_, List.mem_singleton.mpr rfl, List.length_replicate⟩)
  exact absurd bound (by decide)

end CBasics.TelnetClient
