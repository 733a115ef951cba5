import EspLog.Parsing

/-! The bytes of a file in a form, up to the boundary behind it. Behind every line that begins with two dashes the
server takes as many bytes as the boundary has, without looking for the real one in them. -/

namespace EspLog.FileBytes
open CText Parsing

section Buffer
variable (upload : Upload)

theorem writeByte_bytes (b : UInt8) : (upload.writeByte b).bytes = upload.bytes ++ [b] := by
  unfold Upload.writeByte
  split
  · simp [Upload.bytes]
  · simp [Upload.bytes]

theorem writeBytes_append (first second : Str) :
    upload.writeBytes (first ++ second) = (upload.writeBytes first).writeBytes second :=
  List.foldl_append

theorem writeBytes_bytes (bytes : Str) : (upload.writeBytes bytes).bytes = upload.bytes ++ bytes := by
  induction bytes generalizing upload with
  | nil => exact (List.append_nil _).symm
  | cons b rest ih =>
    have later := ih (upload.writeByte b)
    rw [writeByte_bytes, List.append_assoc] at later
    exact later

theorem finish_flatten : upload.finish.flatten = upload.bytes := by
  simp [Upload.finish, Upload.bytes]

end Buffer

section Marks

/-- What a line with two dashes begins with, seen from the line before. -/
def mark : Str := [13, 10, 45, 45]

/-- The first mark of the text stands behind `a`. -/
def Clear (a : Str) : Prop := ¬mark <:+: a ++ [13, 10, 45]

theorem Clear.tail {b : UInt8} {a : Str} (clear : Clear (b :: a)) : Clear a := by
  intro inside
  exact clear (inside.trans (List.suffix_cons b (a ++ [13, 10, 45])).isInfix)

theorem clear_of_unmarked (a : Str) (unmarked : ¬mark <:+: a) : Clear a := by
  have shift (c : UInt8) (s : Str) (absent : ¬mark <:+: s) (other : ¬mark <:+ s ++ [c]) : ¬mark <:+: s ++ [c] := by
    rw [List.infix_concat_iff, not_or]
    exact ⟨other, absent⟩
  have last (c : UInt8) (s : Str) (ends : mark <:+ s ++ [c]) : c = 45 ∧ [13, 10, 45] <:+ s := by
    have whole : mark = [13, 10, 45] ++ [45] := rfl
    rw [whole, List.suffix_concat_iff] at ends
    rcases ends with none | ⟨front, same, suffix⟩
    · simp at none
    · obtain ⟨rest, dash⟩ := List.append_inj' same rfl
      cases dash
      exact ⟨rfl, rest ▸ suffix⟩
  have one := shift 13 a unmarked fun ends => absurd (last _ _ ends).1 (by decide)
  have two := shift 10 _ one fun ends => absurd (last _ _ ends).1 (by decide)
  have three := shift 45 _ two fun ends => by
    obtain ⟨front, same⟩ := (last _ _ ends).2
    have split : front ++ [13, 10] ++ [45] = a ++ [13] ++ [10] := by rw [← same]; simp
    have dash := (List.append_inj' split rfl).2
    cases dash
  unfold Clear
  simpa using three

theorem first_mark (f : Str) (marked : mark <:+: f) : ∃ a rest, f = a ++ (mark ++ rest) ∧ Clear a := by
  induction f with
  | nil => simp [mark] at marked
  | cons b f ih =>
    by_cases here : mark <+: b :: f
    · obtain ⟨rest, same⟩ := here
      refine ⟨[], rest, same.symm, ?_⟩
      unfold Clear mark
      decide
    · obtain ⟨a, rest, same, clear⟩ := ih ((List.infix_cons_iff.mp marked).resolve_left here)
      refine ⟨b :: a, rest, by rw [same]; rfl, ?_⟩
      intro inside
      rcases List.infix_cons_iff.mp inside with starts | later
      · apply here
        have longer : b :: a ++ [13, 10, 45] <+: b :: f := by
          refine ⟨[45] ++ rest, ?_⟩
          rw [same]
          simp [mark]
        exact starts.trans longer
      · exact clear later

end Marks

section Reading
variable (boundary : Str) (behind : Str → Str) (upload : Upload)

theorem read_byte (b c : UInt8) (rest : Str) (other : b ≠ 13) :
    readFrom boundary behind (b :: c :: rest) upload =
      readFrom boundary behind (c :: rest) (upload.writeByte b) := by
  rw [readFrom, readFile, if_pos other]
  rfl

theorem read_return (b c : UInt8) (rest : Str) (other : b ≠ 10) :
    readFrom boundary behind (13 :: b :: c :: rest) upload =
      readFrom boundary behind (b :: c :: rest) (upload.writeByte 13) := by
  rw [readFrom, readFile, if_neg (not_not.mpr rfl)]
  dsimp only
  rw [if_neg other]
  rfl

theorem read_line (b c : UInt8) (rest : Str) (other : b ≠ 45) :
    readFrom boundary behind (13 :: 10 :: b :: c :: rest) upload =
    readFrom boundary behind (b :: c :: rest) (upload.writeBytes [13, 10]) := by
  rw [readFrom, readFile, if_neg (not_not.mpr rfl)]
  dsimp only
  rw [if_pos rfl, if_neg (List.cons_ne_nil _ _), if_pos other]
  rfl

theorem read_dash (b c : UInt8) (rest : Str) (other : b ≠ 45) :
    readFrom boundary behind (13 :: 10 :: 45 :: b :: c :: rest) upload =
      readFrom boundary behind (b :: c :: rest) (upload.writeBytes [13, 10, 45]) := by
  rw [readFrom, readFile, if_neg (not_not.mpr rfl)]
  dsimp only
  rw [if_pos rfl, if_neg (List.cons_ne_nil _ _), if_neg (not_not.mpr rfl), if_pos other]
  rfl

theorem read_mark (rest : Str) (some : rest ≠ []) : readFrom boundary behind (mark ++ rest) upload =
    if holdsBoundary boundary behind (rest.take boundary.length) (rest.drop boundary.length) = true then
      .complete upload (rest.drop boundary.length)
    else readFrom boundary behind (rest.drop boundary.length)
      (upload.writeBytes (mark ++ rest.take boundary.length)) := by
  obtain ⟨b, rest, rfl⟩ := List.exists_cons_of_ne_nil some
  have shape : mark ++ (b :: rest) = 13 :: 10 :: 45 :: 45 :: b :: rest := rfl
  rw [shape, readFrom, readFile, if_neg (not_not.mpr rfl)]
  dsimp only
  rw [if_pos rfl, if_neg (List.cons_ne_nil _ _), if_neg (not_not.mpr rfl), if_neg (not_not.mpr rfl)]
  split
  · rfl
  · cases later : (b :: rest).drop boundary.length with
    | nil => rfl
    | cons next client => rfl

/-- Up to the first mark every byte is written. -/
theorem read_clear (n : Nat) (a rest : Str) (size : a.length ≤ n) (clear : Clear a) :
    readFrom boundary behind (a ++ (mark ++ rest)) upload =
      readFrom boundary behind (mark ++ rest) (upload.writeBytes a) := by
  have shape : mark ++ rest = 13 :: 10 :: 45 :: 45 :: rest := rfl
  rw [shape]
  induction n generalizing a upload with
  | zero =>
    rw [List.length_eq_zero_iff.mp (Nat.le_zero.mp size)]
    rfl
  | succ n ih =>
    rcases a with _ | ⟨b, a⟩
    · rfl
    rw [List.length_cons] at size
    by_cases data : b ≠ 13
    · have next := ih (upload.writeByte b) a (by omega) clear.tail
      have written : upload.writeBytes (b :: a) = (upload.writeByte b).writeBytes a :=
        writeBytes_append upload [b] a
      rw [written]
      rcases a with _ | ⟨c, a⟩
      · exact read_byte boundary behind upload b 13 (10 :: 45 :: 45 :: rest) data
      · exact (read_byte boundary behind upload b c (a ++ 13 :: 10 :: 45 :: 45 :: rest) data).trans next
    rw [not_not.mp data] at clear ⊢
    rcases a with _ | ⟨c, a⟩
    · exact read_return boundary behind upload 13 10 (45 :: 45 :: rest) (by decide)
    rw [List.length_cons] at size
    by_cases line : c ≠ 10
    · have next := ih (upload.writeByte 13) (c :: a) (by rw [List.length_cons]; omega) clear.tail
      have written : upload.writeBytes (13 :: c :: a) = (upload.writeByte 13).writeBytes (c :: a) :=
        writeBytes_append upload [13] (c :: a)
      rw [written]
      rcases a with _ | ⟨d, a⟩
      · exact (read_return boundary behind upload c 13 (10 :: 45 :: 45 :: rest) line).trans next
      · exact (read_return boundary behind upload c d (a ++ 13 :: 10 :: 45 :: 45 :: rest) line).trans next
    rw [not_not.mp line] at clear ⊢
    rcases a with _ | ⟨d, a⟩
    · exact read_line boundary behind upload 13 10 (45 :: 45 :: rest) (by decide)
    rw [List.length_cons] at size
    by_cases dash : d ≠ 45
    · have next := ih (upload.writeBytes [13, 10]) (d :: a) (by rw [List.length_cons]; omega) clear.tail.tail
      have written := writeBytes_append upload [13, 10] (d :: a)
      rw [List.cons_append, List.cons_append, List.nil_append] at written
      rw [written]
      rcases a with _ | ⟨e, a⟩
      · exact (read_line boundary behind upload d 13 (10 :: 45 :: 45 :: rest) dash).trans next
      · exact (read_line boundary behind upload d e (a ++ 13 :: 10 :: 45 :: 45 :: rest) dash).trans next
    rw [not_not.mp dash] at clear ⊢
    rcases a with _ | ⟨e, a⟩
    · exact read_dash boundary behind upload 13 10 (45 :: 45 :: rest) (by decide)
    rw [List.length_cons] at size
    have other : e ≠ 45 := by
      intro same
      subst same
      exact clear (List.IsPrefix.isInfix ⟨a ++ [13, 10, 45], rfl⟩)
    have next := ih (upload.writeBytes [13, 10, 45]) (e :: a) (by rw [List.length_cons]; omega)
      clear.tail.tail.tail
    have written := writeBytes_append upload [13, 10, 45] (e :: a)
    rw [List.cons_append, List.cons_append, List.cons_append, List.nil_append] at written
    rw [written]
    rcases a with _ | ⟨g, a⟩
    · exact (read_dash boundary behind upload e 13 (10 :: 45 :: 45 :: rest) other).trans next
    · exact (read_dash boundary behind upload e g (a ++ 13 :: 10 :: 45 :: 45 :: rest) other).trans next

/-- Whatever the client sends, a file that is read to its end holds what was sent up to the last mark. -/
theorem readFile_split (argByte : UInt8) (client : Str) (ended : Upload) (rest : Str)
    (ends : readFile boundary behind argByte client upload = .complete ended rest) :
    ∃ written e, argByte :: client = written ++ (mark ++ (e ++ rest)) ∧ e.length ≤ boundary.length ∧
      ended = upload.writeBytes written := by
  have extend (upload : Upload) (first : Str) (stream : Str)
      (later : ∃ written e, stream = written ++ (mark ++ (e ++ rest)) ∧
      e.length ≤ boundary.length ∧ ended = (upload.writeBytes first).writeBytes written) :
      ∃ written e, first ++ stream = written ++ (mark ++ (e ++ rest)) ∧ e.length ≤ boundary.length ∧
        ended = upload.writeBytes written := by
    obtain ⟨written, e, same, short, bytes⟩ := later
    exact ⟨first ++ written, e, by rw [same, List.append_assoc], short, by rw [bytes, writeBytes_append]⟩
  fun_induction readFile boundary behind argByte client upload
  case case2 argByte upload data next client ih => exact extend upload [argByte] _ (ih ends)
  case case6 data third client some other ih =>
    rw [not_not.mp data]
    exact extend _ [13, 10] _ (ih ends)
  case case9 data third dash fourth client some other filled ih =>
    rw [not_not.mp data, not_not.mp dash]
    exact extend _ [13, 10, 45] _ (ih ends)
  case case10 data third dash fourth client some other endBuf found filled =>
    rw [not_not.mp data, not_not.mp dash, not_not.mp other]
    injection ends with same left
    refine ⟨[], endBuf, ?_, List.length_take_le _ _, same.symm⟩
    rw [← left, List.take_append_drop]
    rfl
  case case12 data third dash fourth client some other endBuf found next client' later filled ih =>
    rw [not_not.mp data, not_not.mp dash, not_not.mp other]
    have whole := List.take_append_drop boundary.length client
    rw [later] at whole
    rw [← whole]
    exact extend _ (mark ++ endBuf) _ (ih ends)
  case case13 data second third client other ih =>
    rw [not_not.mp data]
    exact extend _ [13] _ (ih ends)
  all_goals cases ends

end Reading

section Contents

/-- What separates the parts of a form. -/
structure Boundary where
  text : Str
  filled : text ≠ []
  plain : ∀ b ∈ text, b ≠ 0 ∧ b ≠ 13

variable (boundary : Boundary) (behind : Str → Str)

def tail (after : Str) : Str := mark ++ (boundary.text ++ after)

/-- The contents from which no byte of the boundary behind them is taken too early: behind each mark there are as
many bytes as the boundary has, and not the boundary. -/
inductive Intact (rest : Str) : Str → Prop
  | last (f : Str) (unmarked : ¬mark <:+: f) : Intact rest f
  | passed (a e f : Str) (clear : Clear a) (size : e.length = boundary.text.length)
      (other : holdsBoundary boundary.text behind e (f ++ rest) = false) (later : Intact rest f) :
    Intact rest (a ++ (mark ++ (e ++ f)))

theorem holdsBoundary_self (client : Str) : holdsBoundary boundary.text behind boundary.text client = true := by
  have ended : ∀ b ∈ boundary.text, (b != 0) = true := by
    intro b member
    rw [bne_iff_ne]
    exact (boundary.plain b member).1
  rw [holdsBoundary, decide_eq_true_eq, cString, List.takeWhile_append_of_pos ended]
  exact (List.prefix_append _ _).isInfix

theorem Intact.read {after f : Str} (intact : Intact boundary behind (tail boundary after) f) (upload : Upload) :
    readFrom boundary.text behind (f ++ tail boundary after) upload = .complete (upload.writeBytes f) after := by
  induction intact generalizing upload with
  | last f unmarked =>
    have some : boundary.text ++ after ≠ [] := List.append_ne_nil_of_left_ne_nil boundary.filled _
    rw [tail, read_clear boundary.text behind upload f.length f _ le_rfl (clear_of_unmarked f unmarked),
      read_mark boundary.text behind _ _ some, List.take_left, List.drop_left,
      if_pos (holdsBoundary_self boundary behind after)]
  | passed a e f clear size other later ih =>
    have some : e ++ (f ++ tail boundary after) ≠ [] := by
      simp [tail, mark]
    have shape : a ++ (mark ++ (e ++ f)) ++ tail boundary after =
        a ++ (mark ++ (e ++ (f ++ tail boundary after))) := by
      simp only [List.append_assoc]
    have taken : (e ++ (f ++ tail boundary after)).take boundary.text.length = e := by rw [← size, List.take_left]
    have left : (e ++ (f ++ tail boundary after)).drop boundary.text.length = f ++ tail boundary after := by
      rw [← size, List.drop_left]
    rw [shape, read_clear boundary.text behind upload a.length a _ le_rfl clear,
      read_mark boundary.text behind _ _ some, taken, left, if_neg (by rw [other]; decide), ih,
      ← writeBytes_append, ← writeBytes_append]
    simp only [List.append_assoc]

/-- What is not intact arrives with other contents, if it arrives. -/
theorem Intact.of_read {after f left : Str} {upload ended : Upload}
    (reads : readFrom boundary.text behind (f ++ tail boundary after) upload = .complete ended left)
    (same : ended.bytes = upload.bytes ++ f) : Intact boundary behind (tail boundary after) f := by
  induction size : f.length using Nat.strongRecOn generalizing f upload with
  | ind n ih =>
    by_cases unmarked : ¬mark <:+: f
    · exact .last f unmarked
    obtain ⟨a, rest, rfl, clear⟩ := first_mark f (not_not.mp unmarked)
    have some : rest ++ tail boundary after ≠ [] := by
      simp [tail, mark]
    have shape : a ++ (mark ++ rest) ++ tail boundary after = a ++ (mark ++ (rest ++ tail boundary after)) := by
      simp only [List.append_assoc]
    rw [shape, read_clear boundary.text behind upload a.length a _ le_rfl clear,
      read_mark boundary.text behind _ _ some] at reads
    by_cases found : holdsBoundary boundary.text behind ((rest ++ tail boundary after).take boundary.text.length)
        ((rest ++ tail boundary after).drop boundary.text.length) = true
    · -- the file ends at this mark, before the mark was written
      rw [if_pos found] at reads
      injection reads with written _
      rw [← written, writeBytes_bytes] at same
      have short := congrArg List.length same
      simp [mark] at short
    rw [if_neg found] at reads
    by_cases inside : boundary.text.length ≤ rest.length
    · have taken : (rest ++ tail boundary after).take boundary.text.length = rest.take boundary.text.length :=
        List.take_append_of_le_length inside
      have dropped : (rest ++ tail boundary after).drop boundary.text.length =
          rest.drop boundary.text.length ++ tail boundary after :=
        List.drop_append_of_le_length inside
      rw [taken, dropped] at reads found
      have whole := List.take_append_drop boundary.text.length rest
      have later := ih (rest.drop boundary.text.length).length (by
        rw [← size, List.length_append, List.length_append, List.length_drop]
        have marked : mark.length = 4 := rfl
        omega) reads (by
          rw [same, writeBytes_bytes, writeBytes_bytes]
          conv =>
            lhs
            rw [← whole]
          simp only [List.append_assoc]) rfl
      rw [← whole]
      exact .passed a _ _ clear (by rw [List.length_take]; omega) (by simpa using found) later
    · -- a part of the boundary behind the contents has been written
      obtain ⟨argByte, client, split⟩ : ∃ argByte client,
          (rest ++ tail boundary after).drop boundary.text.length = argByte :: client := by
        cases dropped : (rest ++ tail boundary after).drop boundary.text.length with
        | nil =>
          rw [dropped] at reads
          cases reads
        | cons argByte client => exact ⟨argByte, client, rfl⟩
      rw [split] at reads
      obtain ⟨written, e, -, -, grown⟩ := readFile_split boundary.text behind _ argByte client ended left reads
      have lengths := congrArg (fun upload => upload.bytes.length) grown
      rw [same, writeBytes_bytes, writeBytes_bytes, writeBytes_bytes] at lengths
      simp only [List.length_append, List.length_take, tail] at lengths
      omega

/-- A file arrives as it is exactly when its contents are intact in this sense, wherever the memory behind the
server's array leads. -/
theorem file_intact_iff (after f : Str) :
    (∃ upload, readFrom boundary.text behind (f ++ tail boundary after) {} = .complete upload after ∧
      upload.bytes = f) ↔
      Intact boundary behind (tail boundary after) f := by
  constructor
  · intro arrives
    obtain ⟨upload, reads, same⟩ := arrives
    exact .of_read boundary behind reads same
  · intro intact
    refine ⟨_, intact.read boundary behind {}, ?_⟩
    rw [writeBytes_bytes]
    rfl

end Contents
end EspLog.FileBytes
