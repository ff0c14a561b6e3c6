import ShapeMend.Proofs.Json.Reads

/-!
# Reading strings back

What is written between quotes is read back as the same string: characters that
are written as they are stay in a run of plain bytes, and each escape is read as
the character that it stands for.
-/

namespace ShapeMend.Json

def isPlain (byte : UInt8) : Bool := byte ≠ 0x22 && byte ≠ 0x5C && 0x20 ≤ byte

private theorem isPlain_iff {byte : UInt8} :
    isPlain byte ↔ byte.toNat ≠ 0x22 ∧ byte.toNat ≠ 0x5C ∧
      0x20 ≤ byte.toNat := by
  simp [isPlain, UInt8.le_iff_toNat_le, ← UInt8.toNat_inj, and_assoc]

private theorem isPlain_of_mem_encode {c : Char} (hquote : c ≠ '\x22')
    (hescape : c ≠ '\\') (hvisible : 0x20 ≤ c.toNat) {byte : UInt8}
    (hbyte : byte ∈ String.utf8EncodeChar c) : isPlain byte := by
  rw [isPlain_iff]
  by_cases hascii : c.toNat < 0x80
  · rw [encode_of_lt hascii, List.mem_singleton] at hbyte
    have hcode : byte.toNat = c.toNat := by
      rw [hbyte, UInt8.toNat_ofNat_of_lt' (Nat.lt_trans hascii (by decide))]
    rw [hcode]
    exact ⟨fun h => hquote (Char.toNat_inj.mp h),
      fun h => hescape (Char.toNat_inj.mp h), hvisible⟩
  · have hbeyond : 128 ≤ byte.toNat :=
      UInt8.le_iff_toNat_le.mp
        (le_of_mem_encode (Nat.le_of_not_lt hascii) hbyte)
    omega

def quotedBytes (s : String) : List UInt8 := bytes (quoted s).toList

theorem quotedBytes_eq (s : String) :
    quotedBytes s =
      [0x22] ++ (bytes (s.toList.flatMap escapeChar) ++ [0x22]) := by
  simp [quotedBytes, quoted]
  rfl

namespace Scan

/-! ## Escapes -/

private theorem utf8_eq (n : Nat) :
    utf8 n = String.utf8EncodeChar (Char.ofNat n) := by
  rw [utf8, toList_toUTF8]
  simp

variable {path : Path}

def codeOf? (digits : List UInt8) : Option Nat :=
  digits.foldlM (fun n byte => (hexValue? byte).map (n * 16 + ·)) 0

private theorem Reads.code {digits : List UInt8} (hlength : digits.length = 4)
    {n : Nat} (h : codeOf? digits = some n) :
    Reads (code path) digits Any True (· = n) := by
  match digits, hlength with
  | [first, second, third, fourth], _ =>
      intro rest place _
      refine .inl ⟨trivial, n,
        [first, second, third, fourth].foldl Mark.stepPlace place, ?_, rfl⟩
      have hread : (([first, second, third, fourth] ++ rest).take 4).foldlM
          (fun n byte => (hexValue? byte).map (n * 16 + ·)) 0 = some n := h
      unfold Scan.code
      rw [bind_of_ok (rfl : (get : Scan Mark) _ = .ok _)]
      change (Scan.skip 4 >>= _) _ = _
      rw [bind_of_ok (rfl : Scan.skip 4 _ = .ok _), hread]
      rfl

private theorem Reads.codeEscape {n : Nat} (h : n < 0x20) :
    Reads (codeEscape path)
      (bytes ['0', '0', Nat.digitChar (n / 16), Nat.digitChar (n % 16)])
      Any True
      (· = String.utf8EncodeChar (Char.ofNat n)) := by
  have htable : ∀ n < 0x20,
      (bytes
        ['0', '0', Nat.digitChar (n / 16), Nat.digitChar (n % 16)]).length = 4 ∧
        codeOf?
          (bytes ['0', '0', Nat.digitChar (n / 16), Nat.digitChar (n % 16)]) =
          some n := by
    decide +kernel
  refine (Reads.code (htable n h).1 (htable n h).2).last ?_ fun _ hrest => hrest
  rintro _ rfl
  rw [if_neg (by omega), if_neg (by omega)]
  exact Reads.pure (utf8_eq _)

private theorem bytes_escapeChar (c : Char) :
    (bytes (escapeChar c) = String.utf8EncodeChar c ∧
      ∀ byte ∈ String.utf8EncodeChar c, isPlain byte) ∨
      (∃ mark byte, bytes (escapeChar c) = [0x5C, mark] ∧ mark ≠ 0x75 ∧
        shortEscape? mark = some byte ∧ String.utf8EncodeChar c = [byte]) ∨
      (c.toNat < 0x20 ∧ bytes (escapeChar c) = [0x5C, 0x75] ++
        bytes ['0', '0', Nat.digitChar (c.toNat / 16),
          Nat.digitChar (c.toNat % 16)]) := by
  have hshort {d : Char} (mark byte : UInt8) (hmark : mark ≠ 0x75)
      (hwritten : bytes (escapeChar d) = [0x5C, mark])
        (hread : shortEscape? mark = some byte)
      (hbyte : String.utf8EncodeChar d = [byte]) : ∃ mark byte,
      bytes (escapeChar d) = [0x5C, mark] ∧ mark ≠ 0x75 ∧ shortEscape? mark =
        some byte ∧
        String.utf8EncodeChar d = [byte] :=
          ⟨mark, byte, hwritten, hmark, hread, hbyte⟩
  by_cases hquote : c = '\x22'
  · exact .inr
      (.inl (hquote ▸
        hshort 0x22 0x22 (by decide) (by decide) (by decide) (by decide)))
  by_cases hescape : c = '\\'
  · exact .inr
      (.inl (hescape ▸
        hshort 0x5C 0x5C (by decide) (by decide) (by decide) (by decide)))
  by_cases hback : c = '\x08'
  · exact .inr
      (.inl (hback ▸
        hshort 0x62 0x08 (by decide) (by decide) (by decide) (by decide)))
  by_cases htab : c = '\t'
  · exact .inr
      (.inl (htab ▸
        hshort 0x74 0x09 (by decide) (by decide) (by decide) (by decide)))
  by_cases hfeed : c = '\n'
  · exact .inr
      (.inl (hfeed ▸
        hshort 0x6E 0x0A (by decide) (by decide) (by decide) (by decide)))
  by_cases hform : c = '\x0c'
  · exact .inr
      (.inl (hform ▸
        hshort 0x66 0x0C (by decide) (by decide) (by decide) (by decide)))
  by_cases hreturn : c = '\r'
  · exact .inr
      (.inl (hreturn ▸
        hshort 0x72 0x0D (by decide) (by decide) (by decide) (by decide)))
  simp only [escapeChar, if_neg hquote, if_neg hescape, if_neg hback,
    if_neg htab, if_neg hfeed, if_neg hform, if_neg hreturn]
  split
  · next hcontrol => exact .inr (.inr ⟨hcontrol, rfl⟩)
  · next hcontrol =>
      have hbound := Nat.le_of_not_lt hcontrol
      exact .inl
        ⟨by simp, fun _ => isPlain_of_mem_encode hquote hescape hbound⟩

/-! ## Strings -/

theorem stops_of_starts {byte : UInt8} (hbyte : isPlain byte = false)
    {rest : List UInt8} (hrest : Starts byte rest) :
    ∀ other ∈ rest.head?, isPlain other = false := by
  intro other hother
  rw [hrest] at hother
  exact Option.some.inj hother ▸ hbyte

private theorem Reads.stringBytes_escape {run later out : List UInt8}
    (hrun : ∀ byte ∈ run, isPlain byte) {mark : UInt8}
    {piece decoded : List UInt8}
    (hdecoded : mark = 0x75 ∧
      Reads (Scan.codeEscape path) piece Any True (· = decoded) ∨ mark ≠ 0x75 ∧
      piece = [] ∧ ∃ byte, shortEscape? mark = some byte ∧ decoded = [byte])
    {bound : Nat}
    (hlater :
      Reads (stringBytes path bound) later (Starts 0x22) True (· = out)) :
    Reads (stringBytes path (bound + 1))
      (run ++ ([0x5C] ++ ([mark] ++ (piece ++ later)))) (Starts 0x22)
      True (· = run ++ decoded ++ out) := by
  have hrest :
      Reads (do return run ++ decoded ++ (← Scan.stringBytes path bound)) later
      (Starts 0x22)
      True (· = run ++ decoded ++ out) :=
        hlater.map fun _ hvalue => hvalue ▸ rfl
  refine (Reads.takeWhile hrun
    fun _ => stops_of_starts (by decide : isPlain 0x5C = false)).andThen ?_
    fun _ _ => rfl
  rintro _ rfl
  refine Reads.peek ?_
  dsimp only
  rw [if_neg (by decide)]
  refine (Reads.advance _).andThen ?_ fun _ _ => trivial
  intro _ _
  rw [if_pos rfl]
  refine Reads.next.andThen ?_ fun _ _ => trivial
  rintro _ rfl
  dsimp only
  rcases hdecoded with ⟨rfl, hcode⟩ | ⟨hmark, rfl, byte, hbyte, rfl⟩
  · rw [if_pos rfl]
    refine hcode.andThen ?_ fun _ _ => trivial
    rintro _ rfl
    exact hrest
  · rw [if_neg hmark, hbyte]
    exact hrest

/-- A run of plain bytes, and then what is written for the characters of a
string. -/
private theorem Reads.stringBytes {cs : List Char} {run : List UInt8}
    (hrun : ∀ byte ∈ run, isPlain byte) {bound : Nat}
    (hbound : (bytes (cs.flatMap escapeChar)).length < bound) :
    Reads (stringBytes path bound) (run ++ bytes (cs.flatMap escapeChar))
      (Starts 0x22) True
      (· = run ++ bytes cs) := by
  induction cs generalizing run bound with
  | nil =>
      obtain ⟨inner, rfl⟩ : ∃ inner, bound = inner + 1 := ⟨bound - 1, by omega⟩
      rw [List.flatMap_nil, bytes_nil, List.append_nil]
      refine (Reads.takeWhile hrun
        fun _ => stops_of_starts (by decide : isPlain 0x22 = false)).last ?_
        fun _ h => h
      rintro _ rfl
      refine Reads.peek_behind ?_ fun _ h => h
      dsimp only
      rw [if_pos rfl]
      exact Reads.pure rfl
  | cons c cs ih =>
      rw [List.flatMap_cons, bytes_append] at hbound ⊢
      rw [bytes_cons]
      have hlater {bound : Nat}
          (h : (bytes (cs.flatMap escapeChar)).length < bound) :
          Reads (Scan.stringBytes path bound) (bytes (cs.flatMap escapeChar))
            (Starts 0x22) True
            (· = bytes cs) := ih (List.forall_mem_nil _) h
      rcases bytes_escapeChar c
        with ⟨hwritten, hplain⟩ | hshort | ⟨hcontrol, hwritten⟩
      · rw [hwritten, ← List.append_assoc, ← List.append_assoc]
        rw [List.length_append] at hbound
        exact ih (List.forall_mem_append.mpr ⟨hrun, hplain⟩) (by omega)
      · obtain ⟨mark, byte, hwritten, hmark, hread, hbyte⟩ := hshort
        rw [hwritten] at hbound ⊢
        simp only [List.length_append, List.length_cons] at hbound
        obtain ⟨inner, rfl⟩ : ∃ inner, bound = inner + 1 :=
          ⟨bound - 1, by omega⟩
        have hrest := @hlater inner (by omega)
        have hescape :=
          Reads.stringBytes_escape hrun
            (.inr ⟨hmark, rfl, byte, hread, rfl⟩) hrest
        simpa only [List.append_assoc, List.cons_append, List.nil_append, hbyte]
          using hescape
      · rw [hwritten] at hbound ⊢
        simp only [List.length_append, List.length_cons] at hbound
        obtain ⟨inner, rfl⟩ : ∃ inner, bound = inner + 1 :=
          ⟨bound - 1, by omega⟩
        have hcode : Reads (Scan.codeEscape path) _ Any True _ :=
          Reads.codeEscape hcontrol
        rw [Char.ofNat_toNat] at hcode
        have hrest := @hlater inner (by omega)
        have hescape := Reads.stringBytes_escape hrun (.inl ⟨rfl, hcode⟩) hrest
        simpa only [List.append_assoc, List.cons_append, List.nil_append]
          using hescape

theorem Reads.string (s : String) :
    Reads (do Scan.advance; Scan.string path) (quotedBytes s) Any True
      (· = s) := by
  rw [quotedBytes_eq]
  refine (Reads.advance _).andThen ?_ fun _ _ => trivial
  intro _ _
  refine Reads.remaining fun count hcount => ?_
  rw [List.length_append] at hcount
  refine (Reads.stringBytes (List.forall_mem_nil _) (by omega)).andThen
    ?_ fun _ _ => rfl
  rintro _ rfl
  rw [List.nil_append, fromUTF8?_bytes]
  exact (Reads.advance _).last (fun _ _ => Reads.pure rfl) fun _ _ => trivial

end Scan
end ShapeMend.Json
