import Mathlib.Data.List.Nodup
import Mathlib.Data.List.Perm.Subperm
import Mathlib.Data.List.TakeWhile
import ShapeMend.Module.Binding
import ShapeMend.Proofs.Keyed
import ShapeMend.Proofs.Number.Integers
import ShapeMend.Proofs.Script.Writing

/-!
# Bindings are words

Whatever a declaration is called, its binding is one word of a script: the
characters that are kept continue words, and what an identifier may begin with
begins words.  Every declaration has a binding, and no two have the same one.
-/

namespace ShapeMend

open ShapeMend.Text ShapeMend.Script

/-! ## Tables of ranges -/

namespace Text.CodeRange

def within (inner outer : CodeRange) : Bool :=
  outer.first ≤ inner.first && inner.last ≤ outer.last

def covered (inner : List CodeRange) : List CodeRange → Bool
  | [] => inner.isEmpty
  | outer :: table => covered (inner.dropWhile (·.within outer)) table

private theorem contains_of_within {inner outer : CodeRange}
    (h : inner.within outer) {c : Char} (hc : inner.contains c) :
    outer.contains c := by
  simp only [within, contains, Bool.and_eq_true, decide_eq_true_eq] at h hc ⊢
  omega

private theorem anyContains_of_covered {inner outer : List CodeRange}
    (h : covered inner outer) {c : Char} (hc : anyContains inner c) :
    anyContains outer c := by
  induction outer generalizing inner with
  | nil =>
      obtain rfl : inner = [] := List.isEmpty_iff.mp h
      exact hc
  | cons range table ih =>
      rw [covered] at h
      rw [anyContains, ← List.takeWhile_append_dropWhile (p := (·.within range))
        (l := inner), List.any_append, Bool.or_eq_true] at hc
      rw [anyContains, List.any_cons, Bool.or_eq_true]
      rcases hc with hfront | hrest
      · obtain ⟨first, hmem, hfirst⟩ := List.any_eq_true.mp hfront
        have hwithin := List.mem_takeWhile_imp hmem
        exact .inl (contains_of_within hwithin hfirst)
      · exact .inr (ih h hrest)

end Text.CodeRange

set_option maxRecDepth 4000 in
private theorem Text.covered_letterRanges :
    CodeRange.covered letterRanges alphabeticRanges := by
  decide +kernel

private theorem Text.isAlphabetic_of_isLetter {c : Char}
    (h : isLetter c) : isAlphabetic c := by
  unfold isLetter at h
  unfold isAlphabetic
  split
  · next hascii => rwa [if_pos hascii] at h
  · next hascii =>
      rw [if_neg hascii] at h
      exact CodeRange.anyContains_of_covered covered_letterRanges h

/-! ## Candidates -/

namespace Binding

private theorem startsWord_of_startsIdentifier {c : Char}
    (h : startsIdentifier c) : startsWord c := by
  simp only [startsIdentifier, Bool.or_eq_true, Bool.and_eq_true,
    decide_eq_true_eq] at h
  simp only [startsWord, Bool.or_eq_true, decide_eq_true_eq]
  rcases h with (⟨hletter, -⟩ | hscore) | hdollar
  · exact .inr (isAlphabetic_of_isLetter hletter)
  · exact .inl (.inl hscore)
  · exact .inl (.inr hdollar)

private theorem continuesWord_of_isKept {c : Char} (h : isKept c) :
    continuesWord c := by
  simp only [isKept, Bool.or_eq_true, decide_eq_true_eq] at h
  simp only [continuesWord, startsWord, Bool.or_eq_true, decide_eq_true_eq]
  rcases h with ((halphabetic | hnumeric) | hscore) | hdollar
  · exact .inl (.inr halphabetic)
  · exact .inr hnumeric
  · exact .inl (.inl (.inl hscore))
  · exact .inl (.inl (.inr hdollar))

theorem toNat_lt_of_isDigit {c : Char} (h : c.isDigit) : c.toNat < 0x80 := by
  have hnine : '9'.toNat = 57 := rfl
  have hle := Char.isDigit_iff_toNat.mp h
  omega

theorem isNumeric_of_isDigit {c : Char} (h : c.isDigit) : isNumeric c := by
  rwa [isNumeric, if_pos (toNat_lt_of_isDigit h)]

private theorem continuesWord_of_isDigit {c : Char} (h : c.isDigit) :
    continuesWord c := by
  simp only [continuesWord, isNumeric_of_isDigit h, Bool.or_true]

private theorem isName_sanitized (name : String) : isName (sanitized name) := by
  have hkept : ∀ c ∈ name.toList.map fun c => if isKept c then c else '_',
      continuesWord c := by
    intro c hc
    obtain ⟨d, -, rfl⟩ := List.mem_map.mp hc
    split
    · next hkept => exact continuesWord_of_isKept hkept
    · decide
  simp only [sanitized]
  generalize name.toList.map (fun c => if isKept c then c else '_') =
    replaced at hkept ⊢
  split
  · have hscore :
        ("_" ++ String.ofList replaced).toList = '_' :: replaced := by simp
    rw [isName, hscore]
    exact List.all_eq_true.mpr hkept
  · next hidentifier =>
      have hstart : isIdentifier (String.ofList replaced) := by
        simp only [Bool.or_eq_true, not_or, Bool.not_eq_true',
          Bool.not_eq_false] at hidentifier
        exact hidentifier.1
      unfold isIdentifier at hstart
      unfold isName
      rw [String.toList_ofList] at hstart ⊢
      cases replaced with
      | nil => exact absurd hstart Bool.false_ne_true
      | cons first rest =>
          simp only [Bool.and_eq_true] at hstart ⊢
          refine ⟨startsWord_of_startsIdentifier hstart.1,
            List.all_eq_true.mpr fun c hc => ?_⟩
          exact hkept c (List.mem_cons_of_mem _ hc)

private theorem isName_append {name suffix : String} (hname : isName name)
    (hsuffix : ∀ c ∈ suffix.toList, continuesWord c) :
    isName (name ++ suffix) := by
  unfold isName at hname ⊢
  rw [String.toList_append]
  cases hchars : name.toList with
  | nil =>
      rw [hchars] at hname
      exact absurd hname Bool.false_ne_true
  | cons first rest =>
      rw [hchars] at hname
      simp only [List.cons_append, Bool.and_eq_true, List.all_append] at hname ⊢
      exact ⟨hname.1, hname.2, List.all_eq_true.mpr hsuffix⟩

theorem exists_candidate_eq (identifier : String) (number : Nat) : ∃ suffix,
    candidate identifier number = identifier ++ suffix ∧ ∀ c ∈ suffix.toList,
      c = '_' ∨ c.isDigit := by
  unfold candidate
  split
  · exact ⟨"", String.append_empty.symm, by simp⟩
  · refine ⟨"_" ++ toString number, String.append_assoc, fun c hc => ?_⟩
    rw [String.toList_append, List.mem_append, Nat.toString_eq_ofList_toDigits]
      at hc
    rcases hc with hscore | hdigit
    · exact .inl (by simpa using hscore)
    · exact .inr (Number.Decimal.isDigit_of_mem (String.toList_ofList ▸ hdigit))

private theorem isName_candidate {identifier : String} (h : isName identifier)
    (number : Nat) : isName (candidate identifier number) := by
  obtain ⟨suffix, heq, hsuffix⟩ := exists_candidate_eq identifier number
  rw [heq]
  refine isName_append h fun c hc => ?_
  rcases hsuffix c hc with rfl | hdigit
  · decide
  · exact continuesWord_of_isDigit hdigit

private theorem isName_firstFree {identifier : String} (h : isName identifier)
    (taken : List String) (bound number : Nat) :
    isName (firstFree taken identifier bound number) := by
  induction bound generalizing number with
  | zero => exact isName_candidate h number
  | succ bound ih =>
      rw [firstFree]
      split
      · exact ih (number + 1)
      · exact isName_candidate h number

theorem isName_of_mem_allocateAll {taken names : List String}
    {entry : String × String} (h : entry ∈ allocateAll taken names) :
    isName entry.2 := by
  induction names generalizing taken with
  | nil => exact absurd h List.not_mem_nil
  | cons name names ih =>
      rw [allocateAll] at h
      rcases List.mem_cons.mp h with rfl | hlater
      · exact isName_firstFree (isName_sanitized name) _ _ _
      · exact ih hlater

theorem keys_allocateAll (taken names : List String) :
    Keyed.keys (allocateAll taken names) = names := by
  induction names generalizing taken with
  | nil => rfl
  | cons name names ih => rw [allocateAll, Keyed.keys_cons, ih]

/-! ## Distinct bindings -/

private theorem candidate_injective {identifier : String} {first second : Nat}
    (hfirst : 0 < first) (hsecond : 0 < second)
    (h : candidate identifier first = candidate identifier second) :
    first = second := by
  have hlist := congrArg String.toList h
  simp only [candidate] at hlist
  split at hlist
  · split at hlist
    · omega
    · simp at hlist
  · split at hlist
    · simp at hlist
    · simp only [String.toList_append, Nat.toString_eq_ofList_toDigits,
        String.toList_ofList] at hlist
      have hnumber :=
        congrArg (Number.Decimal.natOfDigits 0) (List.append_cancel_left hlist)
      rwa [Number.Decimal.natOfDigits_toDigits,
        Number.Decimal.natOfDigits_toDigits] at hnumber

/-- A search ends on a taken candidate only if all candidates before it are
taken as well. -/
private theorem mem_of_firstFree_mem {taken : List String} {identifier : String}
    {bound number : Nat} (h : firstFree taken identifier bound number ∈ taken) :
    ∀ count ≤ bound, candidate identifier (number + count) ∈ taken := by
  induction bound generalizing number with
  | zero =>
      intro count hcount
      obtain rfl := Nat.le_zero.mp hcount
      exact h
  | succ bound ih =>
      rw [firstFree] at h
      split at h
      · next htaken =>
          intro count hcount
          cases count with
          | zero => simpa using htaken
          | succ count =>
              have hlater := ih h count (by omega)
              rwa [Nat.add_assoc, Nat.add_comm 1] at hlater
      · next hfree => exact absurd h (by simpa using hfree)

theorem allocate_not_mem (taken : List String) (name : String) :
    allocate taken name ∉ taken := by
  intro h
  have hall := mem_of_firstFree_mem h
  have hdistinct : ((List.range (taken.length + 1)).map fun count =>
      candidate (sanitized name) (1 + count)).Nodup := by
    refine List.Nodup.map (fun first second hsame => ?_) List.nodup_range
    have hnumbers := candidate_injective (by omega) (by omega) hsame
    omega
  have hsubset : ((List.range (taken.length + 1)).map fun count =>
      candidate (sanitized name) (1 + count)) ⊆ taken := by
    intro text htext
    obtain ⟨count, hcount, rfl⟩ := List.mem_map.mp htext
    exact hall count (Nat.lt_succ_iff.mp (List.mem_range.mp hcount))
  have hlength := (List.subperm_of_subset hdistinct hsubset).length_le
  rw [List.length_map, List.length_range] at hlength
  omega

theorem nodup_allocateAll (taken names : List String) :
    ((allocateAll taken names).map (·.2)).Nodup ∧
      ∀ entry ∈ allocateAll taken names, entry.2 ∉ taken := by
  induction names generalizing taken with
  | nil => exact ⟨List.nodup_nil, fun _ h => absurd h List.not_mem_nil⟩
  | cons name names ih =>
      obtain ⟨hnodup, hfresh⟩ := ih (allocate taken name :: taken)
      rw [allocateAll]
      refine ⟨?_, ?_⟩
      · rw [List.map_cons, List.nodup_cons]
        refine ⟨fun hmem => ?_, hnodup⟩
        obtain ⟨entry, hentry, hsame⟩ := List.mem_map.mp hmem
        exact hfresh entry hentry (hsame ▸ List.mem_cons_self)
      · intro entry hentry
        rcases List.mem_cons.mp hentry with rfl | hlater
        · exact allocate_not_mem taken name
        · exact fun hmem => hfresh entry hlater (List.mem_cons_of_mem _ hmem)

end Binding

namespace Schema

theorem bindings_injective {schema : Schema} {first second binding : String}
    (hfirst : Keyed.lookup first schema.bindings = some binding)
    (hsecond : Keyed.lookup second schema.bindings = some binding) :
    first = second := by
  have hsame :=
    List.inj_on_of_nodup_map (Binding.nodup_allocateAll [] schema.names).1
    (Keyed.mem_of_lookup hfirst) (Keyed.mem_of_lookup hsecond) rfl
  exact congrArg Prod.fst hsame

theorem exists_lookup_bindings {schema : Schema} {declaration : Declaration}
    (h : declaration ∈ schema.declarations) :
    ∃ binding,
      Keyed.lookup declaration.name schema.bindings = some binding := by
  have hkey : declaration.name ∈ Keyed.keys schema.bindings := by
    rw [bindings, Binding.keys_allocateAll]
    exact List.mem_map_of_mem h
  exact Option.isSome_iff_exists.mp (Keyed.isSome_lookup_iff.mpr hkey)

end Schema

end ShapeMend
