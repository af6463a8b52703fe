import SolanaRfq.Format.Numeral
import Mathlib.Computability.RegularExpressions
import Mathlib.Data.Set.List

/-!
# Spelled numerals

Numerals written over an alphabet with a glyph for each digit and a point in front of the fraction,
and the regular expression that recognises them.

* `oneOf`, `oneOrMore`, `optional`: regular expressions, each with the strings it matches;
* `Numeral.spell`: the spelling of a numeral; `splitOn_spell`: splitting it at the point;
* **`mem_grammar`**: digits with an optional point and further digits spell the numerals.
-/

namespace Positional

open RegularExpression

variable {α : Type*} {b : ℕ}

/-! ## Regular expressions -/

/-- One symbol of a class. -/
def oneOf (cs : List α) : RegularExpression α := (cs.map char).sum

/-- One or more repetitions. -/
def oneOrMore (P : RegularExpression α) : RegularExpression α := P * P.star

/-- A part that may be left out. -/
def optional (P : RegularExpression α) : RegularExpression α := P + 1

theorem mem_oneOf {cs s : List α} : s ∈ (oneOf cs).matches' ↔ ∃ c ∈ cs, s = [c] := by
  unfold oneOf
  induction cs with
  | nil => simp [Language.notMem_zero]
  | cons c cs ih =>
    rw [List.map_cons, List.sum_cons, matches'_add, matches'_char, Language.mem_add, ih,
      List.exists_mem_cons_iff]
    exact Iff.rfl

theorem mem_star_oneOf {cs s : List α} : s ∈ (oneOf cs).star.matches' ↔ ∀ c ∈ s, c ∈ cs := by
  rw [matches'_star, Language.mem_kstar]
  constructor
  · rintro ⟨words, rfl, hwords⟩ c hc
    obtain ⟨w, hw, hcw⟩ := List.mem_flatten.mp hc
    obtain ⟨d, hd, rfl⟩ := mem_oneOf.mp (hwords w hw)
    rwa [List.mem_singleton.mp hcw]
  · intro h
    refine ⟨s.map fun c => [c], by rw [← List.flatMap_def, List.flatMap_singleton'], ?_⟩
    intro w hw
    obtain ⟨c, hc, rfl⟩ := List.mem_map.mp hw
    exact mem_oneOf.mpr ⟨c, h c hc, rfl⟩

theorem mem_oneOrMore_oneOf {cs s : List α} :
    s ∈ (oneOrMore (oneOf cs)).matches' ↔ s ≠ [] ∧ ∀ c ∈ s, c ∈ cs := by
  rw [oneOrMore, matches'_mul, Language.mem_mul]
  simp only [mem_oneOf, mem_star_oneOf]
  constructor
  · rintro ⟨_, ⟨c, hc, rfl⟩, t, ht, rfl⟩
    exact ⟨by simp, List.forall_mem_cons.mpr ⟨hc, ht⟩⟩
  · rintro ⟨hne, h⟩
    obtain ⟨c, t, rfl⟩ := List.exists_cons_of_ne_nil hne
    obtain ⟨hc, ht⟩ := List.forall_mem_cons.mp h
    exact ⟨[c], ⟨c, hc, rfl⟩, t, ht, rfl⟩

theorem mem_optional {P : RegularExpression α} {s : List α} :
    s ∈ (optional P).matches' ↔ s ∈ P.matches' ∨ s = [] := by
  rw [optional, matches'_add, matches'_epsilon, Language.mem_add, Language.mem_one]

theorem mem_char_mul {P : RegularExpression α} {a : α} {s : List α} :
    s ∈ (char a * P).matches' ↔ ∃ t ∈ P.matches', s = a :: t := by
  rw [matches'_mul, matches'_char, Language.mem_mul]
  constructor
  · rintro ⟨_, rfl, t, ht, rfl⟩
    exact ⟨t, ht, rfl⟩
  · rintro ⟨t, ht, rfl⟩
    exact ⟨[a], rfl, t, ht, rfl⟩

/-! ## Spellings -/

variable (glyph : Fin b → α) (point : α)

/-- A fraction with the point in front of it; without digits there is no point either. -/
def spellFraction : List (Fin b) → List α
  | [] => []
  | d :: ds => point :: (d :: ds).map glyph

/-- The digits of a numeral, with the point in front of its fraction. -/
def Numeral.spell (x : Numeral b) : List α :=
  x.whole.map glyph ++ spellFraction glyph point x.fraction

/-- Digits, optionally followed by the point and further digits. -/
def grammar : RegularExpression α :=
  oneOrMore (oneOf (List.ofFn glyph)) *
    optional (char point * oneOrMore (oneOf (List.ofFn glyph)))

theorem mem_oneOrMore_glyph {s : List α} :
    s ∈ (oneOrMore (oneOf (List.ofFn glyph))).matches' ↔
      ∃ ds : List (Fin b), ds ≠ [] ∧ ds.map glyph = s := by
  have hrange : (∀ c ∈ s, c ∈ List.ofFn glyph) ↔ ∃ ds : List (Fin b), ds.map glyph = s := by
    simp only [List.mem_ofFn]
    exact (Set.ext_iff.mp (Set.range_list_map glyph) s).symm
  rw [mem_oneOrMore_oneOf, hrange]
  constructor
  · rintro ⟨hne, ds, rfl⟩
    exact ⟨ds, fun h => hne (by rw [h, List.map_nil]), rfl⟩
  · rintro ⟨ds, hne, rfl⟩
    exact ⟨fun h => hne (List.map_eq_nil_iff.mp h), ds, rfl⟩

theorem mem_optional_fraction {s : List α} :
    s ∈ (optional (char point * oneOrMore (oneOf (List.ofFn glyph)))).matches' ↔
      ∃ ds : List (Fin b), spellFraction glyph point ds = s := by
  rw [mem_optional, mem_char_mul]
  simp only [mem_oneOrMore_glyph]
  constructor
  · rintro (⟨_, ⟨ds, hne, rfl⟩, rfl⟩ | rfl)
    · obtain ⟨d, ds, rfl⟩ := List.exists_cons_of_ne_nil hne
      exact ⟨d :: ds, rfl⟩
    · exact ⟨[], rfl⟩
  · rintro ⟨ds, rfl⟩
    cases ds with
    | nil => exact .inr rfl
    | cons d ds => exact .inl ⟨_, ⟨d :: ds, by simp, rfl⟩, rfl⟩

/-- **The grammar matches the spellings of the numerals.** -/
theorem mem_grammar {s : List α} :
    s ∈ (grammar glyph point).matches' ↔ ∃ x : Numeral b, x.spell glyph point = s := by
  rw [grammar, matches'_mul, Language.mem_mul]
  simp only [mem_oneOrMore_glyph, mem_optional_fraction]
  constructor
  · rintro ⟨_, ⟨whole, hne, rfl⟩, _, ⟨fraction, rfl⟩, rfl⟩
    exact ⟨⟨whole, fraction, hne⟩, rfl⟩
  · rintro ⟨x, rfl⟩
    exact ⟨_, ⟨x.whole, x.whole_ne_nil, rfl⟩, _, ⟨x.fraction, rfl⟩, rfl⟩

variable {glyph point}

/-- A point that is no digit splits a spelling into its two parts. -/
theorem splitOn_spell [DecidableEq α] (hpoint : ∀ d, glyph d ≠ point) (x : Numeral b) :
    (x.spell glyph point).splitOn point =
      if x.fraction = [] then [x.whole.map glyph]
      else [x.whole.map glyph, x.fraction.map glyph] := by
  have hnot (ds : List (Fin b)) : point ∉ ds.map glyph := by
    rw [List.mem_map]
    rintro ⟨d, -, hd⟩
    exact hpoint d hd
  obtain ⟨whole, fraction, hne⟩ := x
  unfold Numeral.spell
  cases fraction with
  | nil => rw [spellFraction, List.append_nil, List.splitOn_eq_singleton (hnot _), if_pos rfl]
  | cons d ds =>
    rw [spellFraction, List.splitOn_append_cons_self_of_not_mem (hnot _),
      List.splitOn_eq_singleton (hnot _), if_neg (List.cons_ne_nil d ds)]

theorem mem_spell {x : Numeral b} {c : α} (h : c ∈ x.spell glyph point) :
    (∃ d, glyph d = c) ∨ c = point := by
  have hmap (ds : List (Fin b)) (hc : c ∈ ds.map glyph) : ∃ d, glyph d = c := by
    obtain ⟨d, -, hd⟩ := List.mem_map.mp hc
    exact ⟨d, hd⟩
  rcases List.mem_append.mp h with hc | hc
  · exact .inl (hmap _ hc)
  · cases hf : x.fraction with
    | nil => simp [hf, spellFraction] at hc
    | cons d ds =>
      rw [hf, spellFraction] at hc
      rcases List.mem_cons.mp hc with rfl | hc
      · exact .inr rfl
      · exact .inl (hmap _ hc)

end Positional
