import PollSocket.Cli.Lines
import PollSocket.Proofs.RoundTrip

set_option autoImplicit false

/-!
# Lines that are read

The lines of a text are found one after the other: what stands in front of the first line feed is a line,
and the lines of what follows come next (`rawLines_append_line`). A reader gets the lines in front of the
first that does not fit, so it gets all lines exactly if all of them fit (`readLines_eq_allLines_iff`).
-/

namespace PollSocket.Cli

variable {cs : List Char} {line : String}

/-! ## Pieces -/

theorem pieces_ne_nil (cs : List Char) : pieces cs ≠ [] := by
  cases cs with
  | nil => exact List.cons_ne_nil _ _
  | cons c cs =>
    rw [pieces, List.foldr_cons]
    split
    · exact List.cons_ne_nil _ _
    · split <;> exact List.cons_ne_nil _ _

theorem pieces_newline (rest : List Char) : pieces ('\n' :: rest) = [] :: pieces rest := rfl

/-- A character other than the line feed joins the piece behind it. -/
theorem pieces_cons {c : Char} (hc : c ≠ '\n') {p : List Char} {more : List (List Char)}
    (h : pieces cs = p :: more) : pieces (c :: cs) = (c :: p) :: more := by
  rw [pieces] at h
  rw [pieces, List.foldr_cons, h, if_neg (by simpa using hc)]

theorem pieces_append {front : List Char} (h : '\n' ∉ front) (rest : List Char) :
    pieces (front ++ '\n' :: rest) = front :: pieces rest := by
  induction front with
  | nil => exact pieces_newline rest
  | cons c front ih =>
    rw [List.mem_cons, not_or] at h
    exact pieces_cons (Ne.symm h.1) (ih h.2)

/-! ## Lines -/

/-- What stands in front of the first line feed is the first line. -/
theorem rawLines_append_line (line rest : String) (h : '\n' ∉ line.toList) :
    rawLines (line ++ "\n" ++ rest) = line.toList :: rawLines rest := by
  have htext : (line ++ "\n" ++ rest).toList = line.toList ++ '\n' :: rest.toList := by
    simp
  have hrest := pieces_ne_nil rest.toList
  unfold rawLines
  dsimp only
  rw [htext, pieces_append h, List.getLast?_cons_of_ne_nil hrest, List.dropLast_cons_of_ne_nil hrest]
  split <;> rfl

theorem allLines_append_line (rest : String) (h : '\n' ∉ line.toList) :
    allLines (line ++ "\n" ++ rest) =
      String.ofList (withoutReturn line.toList) :: allLines rest := by
  rw [allLines, rawLines_append_line line rest h]
  rfl

/-! ## Reading -/

theorem readLines_part (s : String) : readLines s <+: allLines s :=
  ( List.takeWhile_prefix _).map _

/-- A reader gets all lines exactly if all of them fit. -/
theorem readLines_eq_allLines_iff (s : String) :
    readLines s = allLines s ↔ ∀ line ∈ rawLines s, fits line = true := by
  rw [← List.takeWhile_eq_self_iff]
  constructor
  · intro h
    -- what is read is a part of all lines, and as long as they are
    have hlength := congrArg List.length h
    rw [readLines, allLines, List.length_map, List.length_map] at hlength
    exact ( List.takeWhile_prefix _).eq_of_length hlength
  · intro h
    rw [readLines, allLines, h]

/-- A line that fits is read first. -/
theorem readLines_append_line (rest : String) (h : '\n' ∉ line.toList) (hfits : fits line.toList = true) :
    readLines (line ++ "\n" ++ rest) =
      String.ofList (withoutReturn line.toList) :: readLines rest := by
  rw [readLines, rawLines_append_line line rest h, List.takeWhile_cons_of_pos hfits]
  rfl

/-- Nothing is read from a line on that does not fit. -/
theorem readLines_append_long (rest : String) (h : '\n' ∉ line.toList) (hfits : fits line.toList = false) :
    readLines (line ++ "\n" ++ rest) = [] := by
  rw [readLines, rawLines_append_line line rest h, List.takeWhile_cons_of_neg (by simp [hfits])]
  rfl

/-- A line of more characters than a line may have bytes does not fit. -/
theorem fits_eq_false {line : List Char} (h : maxLine < line.length) : fits line = false := by
  have hbytes : line.length ≤ Text.byteLength (String.ofList line) := by
    have hchars := Text.length_le_encode (String.ofList line)
    rwa [String.toList_ofList] at hchars
  rw [fits, decide_eq_false_iff_not]
  omega

end PollSocket.Cli
