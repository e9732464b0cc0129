import Backjump.Dimacs.File
import Backjump.Proofs.Dimacs.Scan
import Backjump.Proofs.Text.Utf8
import Backjump.Proofs.Traversal

/-! What a file holds is what its text holds. Writing each kind of line end as one line
feed takes no line end away and makes no other: each piece of the text ends where it
ended, at whatever point of a line the scan is. So the lines of a file are those of its
text, and with them its tokens, its clauses and its faults. -/
namespace Backjump

variable {files : FileAccess} {path : String} {content : ByteArray}

namespace Text

theorem lines_go_universalNewlines (line text : List Char) :
    lines.go line (universalNewlines text) = lines.go line text := by
  fun_induction universalNewlines text generalizing line with
  | case1 => rfl
  | case2 rest ih =>
    have feed : isLineEnd '\n' = true := rfl
    rw [lines.go_cons fun ret => absurd ret (by decide), if_pos feed, ih, lines.go_crlf]
  | case3 c rest single ih =>
    have single : c = '\r' → rest.head? ≠ some '\n' := by
      rintro rfl next
      obtain ⟨tail, rfl⟩ := List.head?_eq_some_iff.mp next
      exact single tail rfl rfl
    have written : (if c = '\r' then '\n' else c) ≠ '\r' := by
      split_ifs <;> [decide; assumption]
    have ends : isLineEnd (if c = '\r' then '\n' else c) = isLineEnd c := by
      split_ifs with ret
      · rw [ret]
        rfl
      · rfl
    rw [lines.go_cons fun ret => absurd ret written, lines.go_cons single, ends, ih, ih]
    split_ifs with inside ret
    · rfl
    · rw [ret] at inside
      exact absurd rfl inside
    · rfl

theorem lines_universalNewlines (text : List Char) : lines (universalNewlines text) = lines text :=
  lines_go_universalNewlines [] text

end Text

namespace Dimacs

theorem parse_universalNewlines (text : List Char) : parse (Text.universalNewlines text) = parse text := by
  rw [parse, Text.lines_universalNewlines, parse]

theorem clausesOfFile_of_read (stored : files.read path = .ok content) :
    clausesOfFile files path = clausesOfBytes (content.toList.map UInt8.toNat) := by
  rw [clausesOfFile, stored]

/-- What is read of a file is what is read of a text. -/
theorem exists_text {clauses : List (List Int)} (read : clausesOfFile files path = .ok clauses) :
    ∃ text, parse text = .ok clauses := by
  rw [clausesOfFile] at read
  split at read
  · contradiction
  · rw [clausesOfBytes] at read
    split at read
    · contradiction
    · rename_i text _
      rw [parse_universalNewlines] at read
      exact ⟨text, of_mapError read⟩

/-- A file of text gives the clauses of its text, or its fault, whatever line ends it has. -/
theorem clausesOfFile_eq_parse (stored : files.read path = .ok content)
    (valid : content.IsValidUTF8) : clausesOfFile files path =
      (parse (String.ofByteArray content valid).toList).mapError .content := by
  have read := Text.Utf8.decode_toByteArray (String.ofByteArray content valid)
  rw [clausesOfFile_of_read stored, clausesOfBytes, read]
  dsimp only
  rw [parse_universalNewlines]

/-- The comment ends at a carriage return, and so does not hold the clause behind it. -/
theorem clausesOfFile_mixed_line_ends :
    let text := "c größer\r1 -2 \r\n0\x852 0\n\r%\n3 0"
    clausesOfFile ⟨fun _ => .ok text.toByteArray, fun _ => .ok (), fun _ => .ok ()⟩ "mixed.cnf" =
        (parse text.toList).mapError .content ∧
      parse text.toList = .ok [[1, -2], [2]] :=
  ⟨clausesOfFile_eq_parse rfl (String.isValidUTF8 _), by decide +kernel⟩

/-- A file that is no text gives its first fault of encoding. -/
theorem clausesOfFile_eq_encoding (stored : files.read path = .ok content)
    (invalid : ¬content.IsValidUTF8) : ∃ fault,
      Text.Utf8.decode (content.toList.map UInt8.toNat) = .error fault ∧
      clausesOfFile files path = .error (.encoding fault) := by
  rw [clausesOfFile_of_read stored, clausesOfBytes]
  cases read : Text.Utf8.decode (content.toList.map UInt8.toNat) with
  | ok text => exact absurd (Text.Utf8.isValidUTF8_of_decode read) invalid
  | error fault => exact ⟨fault, rfl, rfl⟩

end Dimacs

end Backjump
