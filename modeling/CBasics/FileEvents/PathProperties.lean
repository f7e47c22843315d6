import CBasics.FileEvents.Path
import Mathlib.Data.List.DropRight

/-! The name that is printed is the last part of the path. -/

set_option autoImplicit false

namespace CBasics.FileEvents

open Library

/-- The last part of a path, without the slashes behind it. -/
def baseName (path : List UInt8) : List UInt8 :=
  (path.rdropWhile (· = slash)).rtakeWhile (· ≠ slash)

def OnlySlashes (path : List UInt8) : Prop := ∀ byte ∈ path, byte = slash

instance (path : List UInt8) : Decidable (OnlySlashes path) :=
  inferInstanceAs (Decidable (∀ byte ∈ path, byte = slash))

theorem baseName_append_slashes (path : List UInt8) {slashes : List UInt8}
    (only : OnlySlashes slashes) : baseName (path ++ slashes) = baseName path := by
  have dropped : ∀ byte ∈ slashes.reverse, decide (byte = slash) = true := by
    intro byte member
    simpa using only byte (List.mem_reverse.mp member)
  have cut : (path ++ slashes).rdropWhile (· = slash) = path.rdropWhile (· = slash) := by
    rw [List.rdropWhile, List.reverse_append, List.dropWhile_append_of_pos dropped,
      List.rdropWhile]
  rw [baseName, cut, baseName]

/-- What is kept ends in no slash. -/
theorem baseName_of_last {path : List UInt8} (nonempty : path ≠ [])
    (last : path.getLast nonempty ≠ slash) : baseName path = path.rtakeWhile (· ≠ slash) := by
  have kept : path.rdropWhile (· = slash) = path := by
    rw [List.rdropWhile_eq_self_iff]
    intro _
    simpa using last
  rw [baseName, kept]

theorem rtakeWhile_word {path word : List UInt8} (isWord : Word [slash] word)
    (ends : ∀ byte ∈ path.getLast?, byte = slash) :
    (path ++ word).rtakeWhile (· ≠ slash) = word := by
  have plain : ∀ byte ∈ word.reverse, decide (byte ≠ slash) = true := by
    intro byte member
    simpa using isWord.plain byte (List.mem_reverse.mp member)
  have front : path.reverse.takeWhile (· ≠ slash) = [] := by
    rw [List.getLast?_eq_head?_reverse] at ends
    cases reversed : path.reverse with
    | nil => rfl
    | cons byte rest =>
        rw [reversed] at ends
        rw [List.takeWhile_cons_of_neg (by simpa using ends byte rfl)]
  rw [List.rtakeWhile, List.reverse_append, List.takeWhile_append_of_pos plain, front,
    List.append_nil, List.reverse_reverse]

theorem rtakeWhile_slash (path rest : List UInt8) :
    (path ++ slash :: rest).rtakeWhile (· ≠ slash) = rest.rtakeWhile (· ≠ slash) := by
  induction rest using List.reverseRecOn with
  | nil => exact List.rtakeWhile_concat_neg _ path slash (by simp)
  | append_singleton rest byte ih =>
      rw [← List.cons_append, ← List.append_assoc, List.rtakeWhile_concat, ih,
        List.rtakeWhile_concat]

/-- A name behind slashes or at the front. -/
theorem baseName_word {path word : List UInt8} (isWord : Word [slash] word)
    (ends : ∀ byte ∈ path.getLast?, byte = slash) : baseName (path ++ word) = word := by
  have nonempty : path ++ word ≠ [] := List.append_ne_nil_of_right_ne_nil _ isWord.nonempty
  have last : (path ++ word).getLast nonempty ≠ slash := by
    rw [List.getLast_append_of_right_ne_nil _ _ isWord.nonempty]
    simpa using isWord.plain _ (List.getLast_mem isWord.nonempty)
  rw [baseName_of_last nonempty last, rtakeWhile_word isWord ends]

/-- A path that is more than slashes ends in slashes behind something else. -/
theorem exists_last {path : List UInt8} (more : ¬ OnlySlashes path) :
    ∃ front slashes, path = front ++ slashes ∧ OnlySlashes slashes ∧
      ∃ nonempty : front ≠ [], front.getLast nonempty ≠ slash := by
  have nonempty : path.rdropWhile (· = slash) ≠ [] := by
    simpa [OnlySlashes] using more
  refine ⟨path.rdropWhile (· = slash), path.rtakeWhile (· = slash),
    List.rdropWhile_append_rtakeWhile.symm, fun byte member => ?_, nonempty, ?_⟩
  · simpa using List.mem_rtakeWhile_imp member
  · simpa using List.rdropWhile_last_not _ _ nonempty

theorem baseName_append (path : List UInt8) {rest : List UInt8} (more : ¬ OnlySlashes rest) :
    baseName (path ++ slash :: rest) = baseName rest := by
  obtain ⟨front, slashes, rfl, only, nonempty, last⟩ := exists_last more
  have behind : (path ++ slash :: front).getLast (by simp) ≠ slash := by
    rw [List.getLast_append_of_right_ne_nil _ _ (List.cons_ne_nil slash front),
      List.getLast_cons nonempty]
    exact last
  calc baseName (path ++ slash :: (front ++ slashes))
    _ = baseName (path ++ slash :: front ++ slashes) := by
      rw [List.append_assoc, List.cons_append]
    _ = (path ++ slash :: front).rtakeWhile (· ≠ slash) := by
      rw [baseName_append_slashes _ only, baseName_of_last _ behind]
    _ = baseName front := by
      rw [rtakeWhile_slash, baseName_of_last nonempty last]
    _ = baseName (front ++ slashes) := (baseName_append_slashes front only).symm

/-- A string without NULs, cut at its first name. -/
inductive Parts : List UInt8 → Prop where
  | gap {gap : List UInt8} : Gap [slash] gap → Parts gap
  | last {gap word : List UInt8} : Gap [slash] gap → Word [slash] word → Parts (gap ++ word)
  | more {gap word rest : List UInt8} : Gap [slash] gap → Word [slash] word → 0 ∉ rest →
      Parts (gap ++ word ++ slash :: rest)

theorem parts_word {path gap : List UInt8} {first : UInt8} (noNul : 0 ∉ first :: path)
    (isGap : Gap [slash] gap) (stops : first ≠ slash) : Parts (gap ++ first :: path) := by
  have whole : (first :: path).takeWhile (· ≠ slash) ++ (first :: path).dropWhile (· ≠ slash) =
      first :: path := List.takeWhile_append_dropWhile
  have isWord : Word [slash] ((first :: path).takeWhile (· ≠ slash)) := {
    noNul := fun member => noNul (List.takeWhile_subset _ member)
    nonempty := by
      rw [List.takeWhile_cons_of_pos (by simpa using stops)]
      exact List.cons_ne_nil _ _
    plain := fun byte member => by simpa using List.mem_takeWhile_imp member }
  have noNulRest : 0 ∉ (first :: path).dropWhile (· ≠ slash) :=
    fun member => noNul ((List.dropWhile_suffix _).subset member)
  have ends := List.head?_dropWhile_not (fun byte => decide (byte ≠ slash)) (first :: path)
  rw [← whole]
  cases rest : (first :: path).dropWhile (· ≠ slash) with
  | nil => simpa using Parts.last isGap isWord
  | cons ending rest =>
      simp only [rest] at ends noNulRest
      obtain rfl : ending = slash := by simpa using ends
      rw [← List.append_assoc]
      exact .more isGap isWord fun member => noNulRest (List.mem_cons_of_mem _ member)

theorem parts {path : List UInt8} (noNul : 0 ∉ path) : Parts path := by
  have whole : path.takeWhile (· = slash) ++ path.dropWhile (· = slash) = path :=
    List.takeWhile_append_dropWhile
  have isGap : Gap [slash] (path.takeWhile (· = slash)) := {
    noNul := fun member => noNul (List.takeWhile_subset _ member)
    delimits := fun byte member => by simpa using List.mem_takeWhile_imp member }
  have noNulRest : 0 ∉ path.dropWhile (· = slash) :=
    fun member => noNul ((List.dropWhile_suffix _).subset member)
  have stops := List.head?_dropWhile_not (fun byte => decide (byte = slash)) path
  rw [← whole]
  cases rest : path.dropWhile (· = slash) with
  | nil => simpa using Parts.gap isGap
  | cons first rest =>
      rw [rest] at stops noNulRest
      exact parts_word noNulRest isGap (by simpa using stops)

/-- The string at a position of the array, which `%s` prints. -/
def stringAt (kept : List UInt8 × Nat) : List UInt8 := cString (kept.1.drop kept.2)

section Loop

variable {array further : List UInt8} {start saved basePath : Nat}

theorem tokenLoop_none (ended : strtok array start [slash] = ⟨further, saved, none⟩) :
    tokenLoop array start basePath = (further, basePath) := by
  rw [tokenLoop]
  split
  · rw [ended]
  · rename_i found
    rw [ended] at found
    cases found

theorem tokenLoop_some {token : Nat}
    (found : strtok array start [slash] = ⟨further, saved, some token⟩) :
    tokenLoop array start basePath = tokenLoop further saved token := by
  rw [tokenLoop]
  split
  · rename_i ended
    rw [found] at ended
    cases ended
  · rename_i position same
    rw [found] at same ⊢
    obtain rfl : token = position := Option.some.inj same
    rfl

end Loop

section Words

variable {gap word : List UInt8}

theorem onlySlashes_gap (isGap : Gap [slash] gap) : OnlySlashes gap :=
  fun byte member => List.mem_singleton.mp (isGap.delimits byte member)

theorem not_onlySlashes_word (isWord : Word [slash] word) (gap rest : List UInt8) :
    ¬ OnlySlashes (gap ++ word ++ rest) := by
  intro only
  have inside : word.head isWord.nonempty ∈ word := List.head_mem isWord.nonempty
  refine isWord.plain _ inside (List.mem_singleton.mpr (only _ ?_))
  exact List.mem_append_left _ (List.mem_append_right _ inside)

theorem baseName_gap_word (isGap : Gap [slash] gap) (isWord : Word [slash] word) :
    baseName (gap ++ word) = word :=
  baseName_word isWord fun byte last => onlySlashes_gap isGap byte (List.mem_of_mem_getLast? last)

theorem stringAt_word (isWord : Word [slash] word) (before rest : List UInt8) :
    stringAt (before ++ word ++ 0 :: rest, before.length) = word := by
  rw [stringAt, List.append_assoc, List.drop_left, cString_append_zero,
    cString_eq_self isWord.noNul]

end Words

/-- The induction goes from one token to the next. What lies before is over with, but the
token kept last is in it, ended by a NUL. -/
theorem stringAt_tokenLoop {rest : List UInt8} (noNul : 0 ∉ rest) (before : List UInt8)
    (basePath : Nat) :
    stringAt (tokenLoop (before ++ rest ++ [0]) before.length basePath) =
      if OnlySlashes rest then stringAt (before ++ rest ++ [0], basePath) else baseName rest := by
  induction length : rest.length using Nat.strongRecOn generalizing rest before basePath with
  | ind count ih =>
      cases parts noNul with
      | gap isGap =>
          rw [if_pos (onlySlashes_gap isGap), tokenLoop_none (strtok_none isGap)]
      | @last gap word isGap isWord =>
          have more : ¬ OnlySlashes (gap ++ word) := by
            simpa using not_onlySlashes_word isWord gap []
          have shorter : 0 < count := by
            rw [← length]
            exact List.length_pos_of_ne_nil (List.append_ne_nil_of_right_ne_nil _ isWord.nonempty)
          have ended := @ih 0 shorter [] List.not_mem_nil (before ++ gap ++ word)
            (before ++ gap).length rfl
          rw [List.append_nil, if_pos nofun] at ended
          rw [if_neg more, baseName_gap_word isGap isWord, ← List.append_assoc,
            tokenLoop_some (strtok_last isGap isWord), ended]
          exact stringAt_word isWord (before ++ gap) []
      | @more gap word rest isGap isWord noNulRest =>
          have shorter : rest.length < count := by
            rw [← length]
            simp only [List.length_append, List.length_cons]
            omega
          have later := ih _ shorter noNulRest (before ++ gap ++ word ++ [0])
            (before ++ gap).length rfl
          have same : before ++ gap ++ word ++ [0] ++ rest ++ [0] =
              before ++ gap ++ word ++ 0 :: (rest ++ [0]) := by
            simp only [List.append_assoc, List.cons_append, List.nil_append]
          have start : before ++ (gap ++ word ++ slash :: rest) ++ [0] =
              before ++ gap ++ word ++ slash :: (rest ++ [0]) := by
            simp only [List.append_assoc, List.cons_append]
          have nonzero : slash ≠ 0 := by decide
          rw [same] at later
          rw [if_neg (not_onlySlashes_word isWord gap _), start,
            tokenLoop_some (strtok_next isGap isWord nonzero (List.mem_singleton_self slash)),
            later]
          by_cases only : OnlySlashes rest
          · have slashes : OnlySlashes (slash :: rest) := by
              rintro byte (_ | ⟨_, member⟩)
              · rfl
              · exact only byte member
            rw [if_pos only, baseName_append_slashes _ slashes, baseName_gap_word isGap isWord]
            exact stringAt_word isWord (before ++ gap) _
          · rw [if_neg only, baseName_append _ only]

/-- For every path, the name printed is its last part; only a path without any name is
printed as it is. -/
theorem printedPath_lastPart (argument : List UInt8) :
    printedPath argument =
      (if OnlySlashes (cString argument) then cString argument
      else baseName (cString argument)) ++ [newline] := by
  have string := stringAt_tokenLoop (zero_notMem_cString argument) [] 0
  have whole : stringAt ([] ++ cString argument ++ [0], 0) = cString argument := by
    rw [stringAt, List.nil_append, List.drop_zero, cString_append_zero,
      cString_eq_self (zero_notMem_cString argument)]
  rw [whole] at string
  rw [← string]
  rfl

end CBasics.FileEvents
