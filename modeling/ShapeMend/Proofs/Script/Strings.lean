import ShapeMend.Proofs.Script.Pieces
import ShapeMend.Proofs.Script.Tiling

/-!
# Strings as texts of their own

A string written between quotes splits into one token, which covers the whole
text and stands for the string.  The writer escapes every line feed, so the text
is a single line, and its end is counted along that line.
-/

namespace ShapeMend

open ShapeMend.Text ShapeMend.Script

namespace Json

private theorem not_mem_escapeChar_newline (c : Char) :
    '\n' ∉ escapeChar c := by
  have hdigits : ∀ n < 16, '\n' ≠ Nat.digitChar n := by decide
  by_cases hcontrol : c.toNat < 0x20
  · have hhigh := hdigits (c.toNat / 16) (by omega)
    have hlow := hdigits (c.toNat % 16) (by omega)
    unfold escapeChar
    split_ifs <;> simp [hhigh, hlow]
  · have hfeed : c ≠ '\n' := by
      rintro rfl
      exact hcontrol (by decide)
    unfold escapeChar
    split_ifs <;> simp [Ne.symm hfeed]

theorem not_mem_quoted_newline (value : String) :
    '\n' ∉ (quoted value).toList := by
  have hinside : '\n' ∉ value.toList.flatMap escapeChar := by
    intro hmem
    obtain ⟨c, -, hc⟩ := List.mem_flatMap.mp hmem
    exact not_mem_escapeChar_newline c hc
  simp [quoted, hinside]

end Json

namespace Text.Position

private theorem behind_of_line {line : List Char} (h : '\n' ∉ line) :
    behind line = ⟨1, line.length + 1, (String.ofList line).utf8ByteSize⟩ := by
  have hline : line.rtakeWhile (· ≠ '\n') = line := by
    rw [List.rtakeWhile_eq_self_iff]
    intro c hc
    simpa using fun heq : c = '\n' => h (heq ▸ hc)
  rw [behind, List.count_eq_zero.mpr h, hline]

end Text.Position

namespace Script.TokenStream

/-- A quoted string is one token that covers the text and has the string as its
value; the text ends behind it. -/
theorem ofText_quoted (value : String) :
    let text := Json.quoted value
    ofText text.toList = .ok {
      tokens := [{
        kind := .quoted value
        text := text
        span := ⟨.origin, text.utf8ByteSize⟩
        breakBefore := false }]
      stop := ⟨1, text.length + 1, text.utf8ByteSize⟩
      breakBeforeStop := false } := by
  intro text
  have hend : Position.origin.after text.toList =
      ⟨1, text.length + 1, text.utf8ByteSize⟩ := by
    have hline := Position.behind_of_line (Json.not_mem_quoted_newline value)
    rw [String.ofList_toList, String.length_toList] at hline
    have hstart : Position.origin = .behind [] := rfl
    rw [hstart, Position.after_behind, List.nil_append, hline]
  have htext : (Lexeme.quoted value).text = text.toList := by
    simp [text, Lexeme.text, Json.quoted]
  have hplain : ¬ ['#', '!'] <+: text.toList := by
    simp [text, Json.quoted]
  have hstop : Scans false (Position.origin.after (Lexeme.quoted value).text)
      [] _ := .nil _ _
  have hscan : TokenStream.scanFrom none false .origin
      ((Lexeme.quoted value).text ++ []) = .ok _ :=
    Scans.lexeme rfl hstop none
  rw [List.append_nil, htext, hend] at hscan
  rw [ofText_eq_scanFrom hplain, hscan]
  simp [Token.placed, Lexeme.kind, hend]

end Script.TokenStream

end ShapeMend
