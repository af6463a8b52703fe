import SolanaRfq.Cli.Atoms
import SolanaRfq.Program.Decision

/-!
# The ladder of the command line

`scripts/cli.ts`: a ladder is typed as a JSON array of prices and quantities, each a string or a
number. The file system, the JSON parser and `toString` on its numbers are a `LevelSource`.

* `parseLevels`: the ladder in atoms; `Parsed`: what its levels are;
* **`parseLevels_exact`**: it accepts exactly the ladders of decimals that are worth an atom on both
  sides, and rounds each amount once;
* `WholeAtoms`: both typed amounts are whole numbers of atoms;
* **`parseLevels_sorted_iff`**: then the program accepts the order of the levels exactly when the typed
  prices are in order;
* **`typed_ladder_refusals`**: what the program refuses such a ladder for.
-/

namespace SolanaRfq

open Positional JsString Fallible

/-! ## Lists -/

section Lists

variable {α β γ : Type}

theorem forall₂_join {R : α → β → Prop} {S : α → γ → Prop} {xs : List α} {ys : List β} {zs : List γ}
    (hR : List.Forall₂ R xs ys) (hS : List.Forall₂ S xs zs) :
    List.Forall₂ (fun y z => ∃ x ∈ xs, R x y ∧ S x z) ys zs := by
  induction hR generalizing zs with
  | nil =>
    cases hS
    exact .nil
  | cons hxy _ ih =>
    cases hS with
    | cons hxz hrest =>
      refine .cons ⟨_, List.mem_cons_self, hxy, hxz⟩ ((ih hrest).imp fun _ _ hx => ?_)
      obtain ⟨x, hmem, hx⟩ := hx
      exact ⟨x, List.mem_cons_of_mem _ hmem, hx⟩

theorem exists_forall₂ {R : α → β → Prop} {xs : List α} (h : ∀ x ∈ xs, ∃ y, R x y) :
    ∃ ys, List.Forall₂ R xs ys := by
  induction xs with
  | nil => exact ⟨[], .nil⟩
  | cons x xs ih =>
    obtain ⟨⟨y, hy⟩, hxs⟩ := List.forall_mem_cons.mp h
    obtain ⟨ys, hys⟩ := ih hxs
    exact ⟨y :: ys, .cons hy hys⟩

theorem forall₂_mem_left {R : α → β → Prop} {xs : List α} {ys : List β}
    (h : List.Forall₂ R xs ys) : ∀ x ∈ xs, ∃ y ∈ ys, R x y := by
  induction h with
  | nil => exact fun _ hx => absurd hx List.not_mem_nil
  | cons hxy _ ih =>
    refine List.forall_mem_cons.mpr ⟨⟨_, List.mem_cons_self, hxy⟩, fun x hx => ?_⟩
    obtain ⟨y, hy, hR⟩ := ih x hx
    exact ⟨y, List.mem_cons_of_mem _ hy, hR⟩

theorem pairwise_iff_of_forall₂ {R : α → α → Prop} {S : β → β → Prop} {T : α → β → Prop}
    (h : ∀ x y, T x y → ∀ x' y', T x' y' → (R x x' ↔ S y y')) {xs : List α} {ys : List β}
    (hT : List.Forall₂ T xs ys) : xs.Pairwise R ↔ ys.Pairwise S := by
  have hhead {x : α} {y : β} (hxy : T x y) {xs : List α} {ys : List β}
      (hT : List.Forall₂ T xs ys) : (∀ x' ∈ xs, R x x') ↔ ∀ y' ∈ ys, S y y' := by
    induction hT with
    | nil => simp
    | cons hxy' _ ih => rw [List.forall_mem_cons, List.forall_mem_cons, ih, h _ _ hxy _ _ hxy']
  induction hT with
  | nil => simp
  | cons hxy hrest ih =>
    rw [List.pairwise_cons, List.pairwise_cons]
    exact and_congr (hhead hxy hrest) ih

end Lists

/-! ## The ladder -/

/-- A big-integer library that tells zero. -/
structure LevelNumber (BN : Type) extends BigNumber BN where
  isZero : BN → Bool
  isZero_iff (x : BN) : isZero x = true ↔ value x = 0

/-- The integers tell zero. -/
def LevelNumber.integers : LevelNumber ℤ :=
  { BigNumber.integers with
    isZero := fun x => x = 0
    isZero_iff := fun _ => decide_eq_true_iff }

/-- The type `string | number`. -/
inductive StringOrNumber (Number : Type) where
  | string (s : JsString)
  | number (n : Number)

/-- A level as it is typed; a price or a quantity may be absent or null. -/
structure LevelInput (Number : Type) where
  price : Option (StringOrNumber Number)
  qty : Option (StringOrNumber Number)

/-- The file system, the numbers with their `toString`, and `JSON.parse`, with `none` for a value that
is no array. -/
structure LevelSource where
  Number : Type
  numberToString : Number → JsString
  readFile : JsString → Except JsError JsString
  parseJson : JsString → Except JsError (Option (List (LevelInput Number)))

/-- `toString()`. -/
def LevelSource.toString (source : LevelSource) : StringOrNumber source.Number → JsString
  | .string s => s
  | .number n => source.numberToString n

/-- A level with its texts and its atoms. -/
structure ParsedLevel (BN : Type) where
  price : JsString
  qty : JsString
  baseAtoms : BN
  quoteAtoms : BN

section Ladder

variable {BN : Type} (source : LevelSource) (bn : LevelNumber BN) (baseDecimals quoteDecimals : ℕ)

/-- The error of a level that is worth no atom on one side. -/
def zeroAtomsError (i : ℕ) (qty price : JsString) : JsError :=
  ⟨ofLiteral s!"level[{i}] produces zero atoms (qty=" ++ qty ++ ofLiteral ", price=" ++ price ++
    ofLiteral s!", base_dec={baseDecimals}, quote_dec={quoteDecimals})"⟩

/-- The body of the loop over the typed levels. -/
def parseLevel (l : LevelInput source.Number) (i : ℕ) : Except JsError (ParsedLevel BN) :=
  match l.price, l.qty with
  | some price, some qty => do
    let price := source.toString price
    let qty := source.toString qty
    let atoms ← qtyPriceToAtoms bn.toBigNumber qty price baseDecimals quoteDecimals
    if bn.isZero atoms.baseAtoms ∨ bn.isZero atoms.quoteAtoms then
      throw (zeroAtomsError baseDecimals quoteDecimals i qty price)
    return { price, qty, baseAtoms := atoms.baseAtoms, quoteAtoms := atoms.quoteAtoms }
  | _, _ => throw ⟨ofLiteral s!"level[{i}] missing price/qty"⟩

/-- The text of the ladder: `@path` names a file. -/
def ladderText (src : JsString) : Except JsError JsString :=
  let raw := trim src
  if raw.head? = some 0x40 then source.readFile (raw.drop 1) else .ok raw

/-- The levels of a JSON text, which must be a list of at least one. -/
def parseLevels (src : JsString) : Except JsError (List (ParsedLevel BN)) := do
  let raw ← ladderText source src
  let parsed ← source.parseJson raw
  match parsed with
  | some (l :: levels) =>
    (l :: levels).zipIdx.mapM fun p => parseLevel source bn baseDecimals quoteDecimals p.1 p.2
  | _ => throw ⟨ofLiteral "--levels must be a non-empty JSON array"⟩

variable {source bn baseDecimals quoteDecimals}

/-! ## What a parsed ladder is -/

/-- The texts of a level spell the decimals `q` and `p`. -/
structure Spells (qty price : JsString) (q p : Decimal) : Prop where
  qty : trim qty = q.spell
  price : trim price = p.spell

variable (bn baseDecimals quoteDecimals) in
/-- A parsed level: both amounts are the typed ones rounded down once, and neither is zero. -/
structure Parsed (o : ParsedLevel BN) (q p : Decimal) : Prop where
  spells : Spells o.qty o.price q p
  base : bn.value o.baseAtoms = ⌊q.value ℚ * 10 ^ baseDecimals⌋
  quote : bn.value o.quoteAtoms = ⌊q.value ℚ * p.value ℚ * 10 ^ quoteDecimals⌋
  base_ne : bn.value o.baseAtoms ≠ 0
  quote_ne : bn.value o.quoteAtoms ≠ 0

variable (baseDecimals quoteDecimals) in
/-- A typed level that is worth an atom on both sides. -/
def Worthwhile (l : LevelInput source.Number) : Prop :=
  ∃ qty price q p, l.qty = some qty ∧ l.price = some price ∧
    Spells (source.toString qty) (source.toString price) q p ∧
    1 ≤ q.value ℚ * 10 ^ baseDecimals ∧ 1 ≤ q.value ℚ * p.value ℚ * 10 ^ quoteDecimals

variable (source) in
/-- The texts of a parsed level are those of the typed one. -/
structure TextsOf (l : LevelInput source.Number) (o : ParsedLevel BN) : Prop where
  price : l.price.map source.toString = some o.price
  qty : l.qty.map source.toString = some o.qty

theorem qtyPriceToAtoms_of_spells (bn : BigNumber BN) {qty price : JsString} {q p : Decimal}
    (h : Spells qty price q p) (baseDecimals quoteDecimals : ℕ) :
    ∃ atoms, qtyPriceToAtoms bn qty price baseDecimals quoteDecimals = .ok atoms ∧
      bn.value atoms.baseAtoms = ⌊q.value ℚ * 10 ^ baseDecimals⌋ ∧
      bn.value atoms.quoteAtoms = ⌊q.value ℚ * p.value ℚ * 10 ^ quoteDecimals⌋ := by
  obtain ⟨atoms, hatoms, hbase, hquote⟩ :=
    qtyPriceToAtoms_of_spell bn h.qty h.price baseDecimals quoteDecimals
  have hfloorBase := Numeral.floor_value_mul_pow (K := ℚ) q baseDecimals
  have hfloorQuote := Numeral.floor_value_mul_value_mul_pow (K := ℚ) q p quoteDecimals
  rw [Nat.cast_ofNat] at hfloorBase hfloorQuote
  exact ⟨atoms, hatoms, hbase.trans hfloorBase.symm, hquote.trans hfloorQuote.symm⟩

theorem parseLevel_eq_ok {l : LevelInput source.Number} {i : ℕ} {o : ParsedLevel BN}
    (h : parseLevel source bn baseDecimals quoteDecimals l i = .ok o) :
    TextsOf source l o ∧ ∃ q p, Parsed bn baseDecimals quoteDecimals o q p := by
  obtain ⟨_ | price, _ | qty⟩ := l
  · cases h
  · cases h
  · cases h
  · obtain ⟨atoms, hatoms, hrest⟩ := except_bind_eq_ok.mp h
    obtain ⟨hzero, ho⟩ := guard_eq_ok.mp hrest
    obtain rfl := Except.ok.inj ho
    rw [not_or, bn.isZero_iff, bn.isZero_iff] at hzero
    refine ⟨⟨rfl, rfl⟩, ?_⟩
    by_cases hspelled : ∃ q p : Decimal, trim (source.toString qty) = q.spell ∧
        trim (source.toString price) = p.spell
    · obtain ⟨q, p, hq, hp⟩ := hspelled
      obtain ⟨atoms', hatoms', hbase, hquote⟩ :=
        qtyPriceToAtoms_of_spells bn.toBigNumber ⟨hq, hp⟩ baseDecimals quoteDecimals
      obtain rfl := Except.ok.inj (hatoms.symm.trans hatoms')
      exact ⟨q, p, ⟨hq, hp⟩, hbase, hquote, hzero.1, hzero.2⟩
    · rw [qtyPriceToAtoms_eq_error bn.toBigNumber hspelled] at hatoms
      exact absurd hatoms (by simp)

theorem floor_ne_zero_iff {x : ℚ} (h : 0 ≤ x) : ⌊x⌋ ≠ 0 ↔ 1 ≤ x := by
  rw [← Int.floor_pos]
  have := Int.floor_nonneg.mpr h
  omega

theorem Parsed.worthwhile {o : ParsedLevel BN} {q p : Decimal}
    (h : Parsed bn baseDecimals quoteDecimals o q p) :
    1 ≤ q.value ℚ * 10 ^ baseDecimals ∧ 1 ≤ q.value ℚ * p.value ℚ * 10 ^ quoteDecimals := by
  have hq : 0 ≤ q.value ℚ := q.value_nonneg
  have hp : 0 ≤ p.value ℚ := p.value_nonneg
  rw [← floor_ne_zero_iff (by positivity), ← floor_ne_zero_iff (by positivity), ← h.base, ← h.quote]
  exact ⟨h.base_ne, h.quote_ne⟩

/-- The loop body accepts every level that is worth an atom on both sides. -/
theorem Worthwhile.parseLevel {l : LevelInput source.Number}
    (h : Worthwhile baseDecimals quoteDecimals l) (i : ℕ) :
    ∃ o, parseLevel source bn baseDecimals quoteDecimals l i = .ok o := by
  obtain ⟨qty, price, q, p, hqty, hprice, hspells, hbase, hquote⟩ := h
  obtain ⟨atoms, hatoms, hbaseValue, hquoteValue⟩ :=
    qtyPriceToAtoms_of_spells bn.toBigNumber hspells baseDecimals quoteDecimals
  have hzero : ¬ (bn.isZero atoms.baseAtoms = true ∨ bn.isZero atoms.quoteAtoms = true) := by
    rw [not_or, bn.isZero_iff, bn.isZero_iff, hbaseValue, hquoteValue]
    exact ⟨(floor_ne_zero_iff (zero_le_one.trans hbase)).mpr hbase,
      (floor_ne_zero_iff (zero_le_one.trans hquote)).mpr hquote⟩
  unfold SolanaRfq.parseLevel
  rw [hprice, hqty]
  exact ⟨_, except_bind_eq_ok.mpr ⟨atoms, hatoms, guard_eq_ok.mpr ⟨hzero, rfl⟩⟩⟩

/-- The text `src`, or the file it names, holds the typed ladder `inputs`. -/
def TypedIn (source : LevelSource) (src : JsString) (inputs : List (LevelInput source.Number)) :
    Prop :=
  ∃ raw, ladderText source src = .ok raw ∧ source.parseJson raw = .ok (some inputs)

theorem parseLevels_eq_ok_iff {src : JsString} {out : List (ParsedLevel BN)} :
    parseLevels source bn baseDecimals quoteDecimals src = .ok out ↔
      ∃ inputs, TypedIn source src inputs ∧ inputs ≠ [] ∧ List.Forall₂
        (fun p o => parseLevel source bn baseDecimals quoteDecimals p.1 p.2 = .ok o)
          inputs.zipIdx out := by
  unfold parseLevels
  simp only [except_bind_eq_ok]
  constructor
  · rintro ⟨raw, hraw, parsed, hparsed, hrest⟩
    obtain _ | _ | ⟨l, levels⟩ := parsed
    · cases hrest
    · cases hrest
    · exact ⟨l :: levels, ⟨raw, hraw, hparsed⟩, List.cons_ne_nil _ _, mapM_eq_ok_iff.mp hrest⟩
  · rintro ⟨_ | ⟨l, levels⟩, ⟨raw, hraw, hparsed⟩, hne, hlevels⟩
    · exact absurd rfl hne
    · exact ⟨raw, hraw, _, hparsed, mapM_eq_ok_iff.mpr hlevels⟩

theorem parsed_of_mem {src : JsString} {out : List (ParsedLevel BN)}
    (h : parseLevels source bn baseDecimals quoteDecimals src = .ok out) (o : ParsedLevel BN)
    (ho : o ∈ out) : ∃ q p, Parsed bn baseDecimals quoteDecimals o q p := by
  obtain ⟨inputs, -, -, hlevels⟩ := parseLevels_eq_ok_iff.mp h
  obtain ⟨x, -, hx⟩ := forall₂_mem_left hlevels.flip o ho
  exact (parseLevel_eq_ok hx).2

theorem forall₂_zipIdx_iff {α β : Type} {R : α → β → Prop} {xs : List α} {ys : List β} :
    List.Forall₂ (fun p y => R p.1 y) xs.zipIdx ys ↔ List.Forall₂ R xs ys := by
  rw [← List.forall₂_map_left_iff, List.zipIdx_map_fst]

/-- **A ladder is accepted exactly when all of its levels are decimals that are worth an atom on both
sides, and every amount is rounded down once.** -/
theorem parseLevels_exact (source : LevelSource) (bn : LevelNumber BN)
    (baseDecimals quoteDecimals : ℕ) (src : JsString) :
    (∀ out, parseLevels source bn baseDecimals quoteDecimals src = .ok out →
      ∃ inputs, TypedIn source src inputs ∧ List.Forall₂ (fun l o => TextsOf source l o ∧
        ∃ q p, Parsed bn baseDecimals quoteDecimals o q p) inputs out) ∧
    ∀ inputs, TypedIn source src inputs →
      ((∃ out, parseLevels source bn baseDecimals quoteDecimals src = .ok out) ↔
        inputs ≠ [] ∧ ∀ l ∈ inputs, Worthwhile baseDecimals quoteDecimals l) := by
  have hlevels {inputs : List (LevelInput source.Number)} {out : List (ParsedLevel BN)}
      (h : List.Forall₂ (fun p o => parseLevel source bn baseDecimals quoteDecimals p.1 p.2 = .ok o)
        inputs.zipIdx out) : List.Forall₂ (fun l o => TextsOf source l o ∧
          ∃ q p, Parsed bn baseDecimals quoteDecimals o q p) inputs out :=
    forall₂_zipIdx_iff.mp (h.imp fun _ _ ho => parseLevel_eq_ok ho)
  constructor
  · intro out hout
    obtain ⟨inputs, htyped, -, hparsed⟩ := parseLevels_eq_ok_iff.mp hout
    exact ⟨inputs, htyped, hlevels hparsed⟩
  · rintro inputs ⟨raw, hraw, hinputs⟩
    constructor
    · rintro ⟨out, hout⟩
      obtain ⟨inputs', ⟨raw', hraw', hinputs'⟩, hne, hparsed⟩ := parseLevels_eq_ok_iff.mp hout
      obtain rfl := Except.ok.inj (hraw.symm.trans hraw')
      obtain rfl := Option.some.inj (Except.ok.inj (hinputs.symm.trans hinputs'))
      refine ⟨hne, fun l hl => ?_⟩
      obtain ⟨o, -, htexts, q, p, ho⟩ := forall₂_mem_left (hlevels hparsed) l hl
      obtain ⟨price, hprice, hpriceText⟩ := Option.map_eq_some_iff.mp htexts.price
      obtain ⟨qty, hqty, hqtyText⟩ := Option.map_eq_some_iff.mp htexts.qty
      exact ⟨qty, price, q, p, hqty, hprice, hqtyText ▸ hpriceText ▸ ho.spells, ho.worthwhile⟩
    · rintro ⟨hne, hworth⟩
      have hparse : ∀ p ∈ inputs.zipIdx, ∃ o,
          parseLevel source bn baseDecimals quoteDecimals p.1 p.2 = .ok o := fun p hp =>
        (hworth p.1 (List.fst_mem_of_mem_zipIdx hp)).parseLevel p.2
      obtain ⟨out, hout⟩ := exists_forall₂ hparse
      exact ⟨out, parseLevels_eq_ok_iff.mpr ⟨inputs, ⟨raw, hraw, hinputs⟩, hne, hout⟩⟩

/-! ## On chain -/

variable (bn) in
/-- The level on chain: its `u64` fields take the parsed amounts. -/
structure OnChain (o : ParsedLevel BN) (level : Level) : Prop where
  base : bn.value o.baseAtoms = level.baseAtoms.toNat
  quote : bn.value o.quoteAtoms = level.quoteAtoms.toNat

variable (baseDecimals quoteDecimals) in
/-- Both typed amounts are whole numbers of atoms. -/
def WholeAtoms (o : ParsedLevel BN) : Prop :=
  ∃ (q p : Decimal) (base quote : ℕ), Spells o.qty o.price q p ∧
    q.value ℚ * 10 ^ baseDecimals = base ∧ q.value ℚ * p.value ℚ * 10 ^ quoteDecimals = quote

/-- The typed price of a level. -/
def PricedAt (o : ParsedLevel BN) (p : Decimal) : Prop := trim o.price = p.spell

/-- For the taker the price `p` is strictly better than `p'`: lower for a bid, higher for an ask. -/
def BetterPrice : Side → Decimal → Decimal → Prop
  | .bid, p, p' => p.value ℚ < p'.value ℚ
  | .ask, p, p' => p'.value ℚ < p.value ℚ

variable (baseDecimals quoteDecimals) in
/-- A level whose atoms have exactly the price `p`. -/
structure ExactlyPriced (level : Level) (p : Decimal) : Prop where
  base_pos : 0 < level.baseAtoms.toNat
  price : (level.quoteAtoms.toNat : ℚ) * 10 ^ baseDecimals =
    p.value ℚ * (level.baseAtoms.toNat * 10 ^ quoteDecimals)

theorem digitUnit_injective : Function.Injective digitUnit := by
  intro d e
  decide +revert

theorem spell_injective : Function.Injective Decimal.spell := by
  rintro ⟨whole, fraction, hx⟩ ⟨whole', fraction', hy⟩ h
  have hsplit := congrArg splitPoint h
  have hinj := List.map_injective_iff.mpr digitUnit_injective
  rw [splitPoint_spell, splitPoint_spell, Prod.mk.injEq, hinj.eq_iff, hinj.eq_iff] at hsplit
  obtain ⟨rfl, rfl⟩ := hsplit
  rfl

theorem rateGt_iff_betterPrice {side : Side} {a b : Level} {p p' : Decimal}
    (ha : ExactlyPriced baseDecimals quoteDecimals a p)
    (hb : ExactlyPriced baseDecimals quoteDecimals b p') :
    RateGt side a b ↔ BetterPrice side p p' := by
  have hscale : (0 : ℚ) < 10 ^ baseDecimals := by positivity
  have hatoms : (0 : ℚ) < a.baseAtoms.toNat * b.baseAtoms.toNat * 10 ^ quoteDecimals := by
    have := ha.base_pos
    have := hb.base_pos
    positivity
  have hab : (a.quoteAtoms.toNat : ℚ) * b.baseAtoms.toNat * 10 ^ baseDecimals =
      p.value ℚ * (a.baseAtoms.toNat * b.baseAtoms.toNat * 10 ^ quoteDecimals) := by
    rw [mul_right_comm, ha.price]
    ring
  have hba : (b.quoteAtoms.toNat : ℚ) * a.baseAtoms.toNat * 10 ^ baseDecimals =
      p'.value ℚ * (a.baseAtoms.toNat * b.baseAtoms.toNat * 10 ^ quoteDecimals) := by
    rw [mul_right_comm, hb.price]
    ring
  cases side with
  | bid =>
    calc a.quoteAtoms.toNat * b.baseAtoms.toNat < b.quoteAtoms.toNat * a.baseAtoms.toNat
        ↔ (a.quoteAtoms.toNat : ℚ) * b.baseAtoms.toNat < b.quoteAtoms.toNat * a.baseAtoms.toNat := by
          norm_cast
      _ ↔ p.value ℚ < p'.value ℚ := by
          rw [← mul_lt_mul_iff_left₀ hscale, hab, hba, mul_lt_mul_iff_left₀ hatoms]
  | ask =>
    calc a.baseAtoms.toNat * b.quoteAtoms.toNat < b.baseAtoms.toNat * a.quoteAtoms.toNat
        ↔ (b.quoteAtoms.toNat : ℚ) * a.baseAtoms.toNat < a.quoteAtoms.toNat * b.baseAtoms.toNat := by
          rw [mul_comm a.baseAtoms.toNat, mul_comm b.baseAtoms.toNat]
          norm_cast
      _ ↔ p'.value ℚ < p.value ℚ := by
          rw [← mul_lt_mul_iff_left₀ hscale, hab, hba, mul_lt_mul_iff_left₀ hatoms]

variable (baseDecimals quoteDecimals) in
/-- A level whose atoms are exactly the quantity `q` and its product with the price `p`. -/
structure ExactAtoms (level : Level) (q p : Decimal) : Prop where
  base : (level.baseAtoms.toNat : ℚ) = q.value ℚ * 10 ^ baseDecimals
  quote : (level.quoteAtoms.toNat : ℚ) = q.value ℚ * p.value ℚ * 10 ^ quoteDecimals

/-- Amounts are whole where the atoms hold every typed digit. -/
theorem WholeAtoms.of_digits {o : ParsedLevel BN} {q p : Decimal} (h : Spells o.qty o.price q p)
    (hbase : q.fraction.length ≤ baseDecimals)
    (hquote : q.fraction.length + p.fraction.length ≤ quoteDecimals) :
    WholeAtoms baseDecimals quoteDecimals o := by
  refine ⟨q, p, rescale 10 (number q.digits) q.fraction.length baseDecimals,
    rescale 10 (number q.digits * number p.digits) (q.fraction.length + p.fraction.length)
      quoteDecimals, h, ?_, ?_⟩
  · rw [cast_rescale_of_le _ hbase, Numeral.value_eq, Nat.cast_ofNat]
  · rw [cast_rescale_of_le _ hquote, Numeral.value_eq, Numeral.value_eq, Nat.cast_ofNat,
      Nat.cast_mul, pow_add, div_mul_div_comm]

theorem Parsed.exactAtoms {o : ParsedLevel BN} {q p : Decimal} {level : Level}
    (h : Parsed bn baseDecimals quoteDecimals o q p) (hfit : OnChain bn o level)
    (hwhole : WholeAtoms baseDecimals quoteDecimals o) :
    ExactAtoms baseDecimals quoteDecimals level q p := by
  obtain ⟨q', p', base, quote, hspells, hbase, hquote⟩ := hwhole
  -- a text spells one decimal
  rw [spell_injective (hspells.qty.symm.trans h.spells.qty)] at hbase hquote
  rw [spell_injective (hspells.price.symm.trans h.spells.price)] at hquote
  have hbaseAtoms := hfit.base.symm.trans h.base
  have hquoteAtoms := hfit.quote.symm.trans h.quote
  rw [hbase, Int.floor_natCast, Nat.cast_inj] at hbaseAtoms
  rw [hquote, Int.floor_natCast, Nat.cast_inj] at hquoteAtoms
  exact ⟨by rw [hbaseAtoms, hbase], by rw [hquoteAtoms, hquote]⟩

theorem Parsed.exactlyPriced {o : ParsedLevel BN} {q p p' : Decimal} {level : Level}
    (h : Parsed bn baseDecimals quoteDecimals o q p) (hfit : OnChain bn o level)
    (hwhole : WholeAtoms baseDecimals quoteDecimals o) (hprice : PricedAt o p') :
    ExactlyPriced baseDecimals quoteDecimals level p' := by
  rw [spell_injective (hprice.symm.trans h.spells.price)]
  have hatoms := h.exactAtoms hfit hwhole
  refine ⟨Nat.pos_of_ne_zero fun hzero => h.base_ne ?_, ?_⟩
  · rw [hfit.base, hzero, Nat.cast_zero]
  · rw [hatoms.base, hatoms.quote]
    ring

theorem forall₂_exactlyPriced {src : JsString} {out : List (ParsedLevel BN)} {levels : List Level}
    {prices : List Decimal}
    (h : parseLevels source bn baseDecimals quoteDecimals src = .ok out)
    (hfit : List.Forall₂ (OnChain bn) out levels)
    (hwhole : ∀ o ∈ out, WholeAtoms baseDecimals quoteDecimals o)
    (hprices : List.Forall₂ PricedAt out prices) :
    List.Forall₂ (ExactlyPriced baseDecimals quoteDecimals) levels prices := by
  refine (forall₂_join hfit hprices).imp fun level p hlevel => ?_
  obtain ⟨o, ho, hlevel, hprice⟩ := hlevel
  obtain ⟨q, p', hparsed⟩ := parsed_of_mem h o ho
  exact hparsed.exactlyPriced hlevel (hwhole o ho) hprice

/-- The rates of whole amounts are in order exactly when the typed prices are. -/
theorem pairwise_rateGt_iff (side : Side) {src : JsString} {out : List (ParsedLevel BN)}
    {levels : List Level} {prices : List Decimal}
    (h : parseLevels source bn baseDecimals quoteDecimals src = .ok out)
    (hfit : List.Forall₂ (OnChain bn) out levels)
    (hwhole : ∀ o ∈ out, WholeAtoms baseDecimals quoteDecimals o)
    (hprices : List.Forall₂ PricedAt out prices) :
    levels.Pairwise (RateGt side) ↔ prices.Pairwise (BetterPrice side) :=
  pairwise_iff_of_forall₂ (T := ExactlyPriced baseDecimals quoteDecimals)
    (fun _ _ ha _ _ hb => rateGt_iff_betterPrice ha hb) (forall₂_exactlyPriced h hfit hwhole hprices)

/-- **If all typed amounts are whole numbers of atoms, the program accepts the order of the levels
exactly when the typed prices are in strict order.** -/
theorem parseLevels_sorted_iff (side : Side) {src : JsString} {out : List (ParsedLevel BN)}
    {levels : List Level} {prices : List Decimal}
    (h : parseLevels source bn baseDecimals quoteDecimals src = .ok out)
    (hfit : List.Forall₂ (OnChain bn) out levels)
    (hwhole : ∀ o ∈ out, WholeAtoms baseDecimals quoteDecimals o)
    (hprices : List.Forall₂ PricedAt out prices) :
    assertSortedFor side levels = .ok () ↔ prices.Pairwise (BetterPrice side) := by
  rw [assertSortedFor_eq_ok_iff]
  exact pairwise_rateGt_iff side h hfit hwhole hprices

theorem forall₂_pos {src : JsString} {out : List (ParsedLevel BN)} {levels : List Level}
    (h : parseLevels source bn baseDecimals quoteDecimals src = .ok out)
    (hfit : List.Forall₂ (OnChain bn) out levels) :
    ∀ l ∈ levels, l.baseAtoms > 0 ∧ l.quoteAtoms > 0 := by
  intro l hl
  obtain ⟨o, ho, hlevel⟩ := forall₂_mem_left hfit.flip l hl
  obtain ⟨q, p, hparsed⟩ := parsed_of_mem h o ho
  have hbase := hparsed.base_ne
  have hquote := hparsed.quote_ne
  rw [hlevel.base, Nat.cast_ne_zero] at hbase
  rw [hlevel.quote, Nat.cast_ne_zero] at hquote
  exact ⟨UInt64.lt_iff_toNat_lt.mpr (Nat.pos_of_ne_zero hbase),
    UInt64.lt_iff_toNat_lt.mpr (Nat.pos_of_ne_zero hquote)⟩

/-! ### A sample ladder -/

def sampleLadderText : JsString :=
  ofLiteral "[\x7b\"price\":\"0.4\",\"qty\":2.5\x7d,\x7b\"price\":2,\"qty\":\"2\"\x7d]"

/-- `2.5` and `2`. -/
def sampleQuantities : List Decimal := [⟨[2], [5], by simp⟩, ⟨[2], [], by simp⟩]

/-- `0.4` and `2`. -/
def samplePrices : List Decimal := [⟨[0], [4], by simp⟩, ⟨[2], [], by simp⟩]

/-- A source that knows the sample. -/
def sampleSource : LevelSource where
  Number := Decimal
  numberToString := Decimal.spell
  readFile _ := .error ⟨ofLiteral "ENOENT: no such file or directory"⟩
  parseJson s :=
    if s = sampleLadderText then
      .ok (some [⟨some (.string [0x30, 0x2E, 0x34]), some (.number ⟨[2], [5], by simp⟩)⟩,
        ⟨some (.number ⟨[2], [], by simp⟩), some (.string [0x32])⟩])
    else .error ⟨ofLiteral "Unexpected token in JSON"⟩

def sampleParsed : List (ParsedLevel ℤ) :=
  [⟨[0x30, 0x2E, 0x34], [0x32, 0x2E, 0x35], 25, 10⟩, ⟨[0x32], [0x32], 20, 40⟩]

theorem parseLevels_sample :
    parseLevels sampleSource .integers 1 1 sampleLadderText = .ok sampleParsed := by
  rfl

def sampleLevels : List Level := [⟨25, 10⟩, ⟨20, 40⟩]

theorem onChain_sample : List.Forall₂ (OnChain LevelNumber.integers) sampleParsed sampleLevels :=
  .cons ⟨rfl, rfl⟩ (.cons ⟨rfl, rfl⟩ .nil)

/-- The product of the first level has a digit behind the atoms, a zero. -/
theorem wholeAtoms_sample : ∀ o ∈ sampleParsed, WholeAtoms 1 1 o := by
  refine List.forall_mem_cons.mpr ⟨?_, List.forall_mem_singleton.mpr ?_⟩
  · refine ⟨⟨[2], [5], by simp⟩, ⟨[0], [4], by simp⟩, 25, 10, ⟨by decide, by decide⟩, ?_, ?_⟩
    · norm_num [Numeral.value_eq, Numeral.digits, number, Nat.ofDigits_cons]
    · norm_num [Numeral.value_eq, Numeral.digits, number, Nat.ofDigits_cons]
  · exact .of_digits (q := ⟨[2], [], by simp⟩) (p := ⟨[2], [], by simp⟩) ⟨by decide, by decide⟩
      (by decide) (by decide)

theorem pricedAt_sample : List.Forall₂ PricedAt sampleParsed samplePrices := by
  refine .cons ?_ (.cons ?_ .nil)
  · show trim _ = _
    decide
  · show trim _ = _
    decide

theorem parseLevels_sorted_iff_sample :
    assertSortedFor .bid sampleLevels = .ok () ↔ samplePrices.Pairwise (BetterPrice .bid) :=
  parseLevels_sorted_iff .bid parseLevels_sample onChain_sample wholeAtoms_sample pricedAt_sample

/-! ## Refusals -/

/-- **The program never refuses a typed ladder as empty or degenerate, and, if all typed amounts are
whole numbers of atoms, refuses it as unsorted only if the typed prices are out of order.** -/
theorem typed_ladder_refusals {rt : Runtime} {f : FillCall} {src : JsString}
    {out : List (ParsedLevel BN)}
    (h : parseLevels source bn baseDecimals quoteDecimals src = .ok out)
    (hfit : List.Forall₂ (OnChain bn) out f.params.levels) {c : ErrorCode} {w' : World}
    (hrun : f.run rt = (.error (.code c), w')) :
    c ≠ .emptyLevels ∧ c ≠ .degenerateLevelEntry ∧
      ∀ prices, (∀ o ∈ out, WholeAtoms baseDecimals quoteDecimals o) →
        List.Forall₂ PricedAt out prices → prices.Pairwise (BetterPrice f.takerSide) →
        c ≠ .invalidLevelOrdering := by
  have hrefused := decision_eq_code_iff.mp (run_eq_code_iff_decision.mp hrun).1
  have hpos := forall₂_pos h hfit
  refine ⟨?_, ?_, fun prices hwhole hprices hsorted => ?_⟩
  · rintro rfl
    cases hrefused with
    | emptyLevels _ hlevels =>
      obtain ⟨inputs, -, hne, hparsed⟩ := parseLevels_eq_ok_iff.mp h
      have hlength := hparsed.length_eq.trans (hfit.length_eq.trans (congrArg List.length hlevels))
      rw [List.length_zipIdx] at hlength
      exact hne (List.eq_nil_of_length_eq_zero hlength)
    | sweep _ _ _ _ hsweep =>
      obtain ⟨c, hc, hrefusal⟩ := sweep_eq_error hsweep
      obtain rfl := ProgramError.code.inj hc
      cases hrefusal
  · rintro rfl
    cases hrefused with
    | sweep _ _ _ _ hsweep =>
      obtain ⟨c, hc, hrefusal⟩ := sweep_eq_error hsweep
      obtain rfl := ProgramError.code.inj hc
      cases hrefusal with
      | degenerate l hl hzero => exact hzero (hpos l hl)
  · rintro rfl
    cases hrefused with
    | invalidLevelOrdering _ _ hunsorted =>
      exact hunsorted ((pairwise_rateGt_iff _ h hfit hwhole hprices).mpr hsorted)
    | sweep _ _ _ _ hsweep =>
      obtain ⟨c, hc, hrefusal⟩ := sweep_eq_error hsweep
      obtain rfl := ProgramError.code.inj hc
      cases hrefusal

/-- A bid for more than the sample ladder holds. -/
def sampleRefusedCall : FillCall where
  before := sampleWorld
  accounts := sampleAccounts
  takerSide := .bid
  amountInAtoms := 1000
  minOutAtoms := 1
  params := ⟨7, 100, sampleLevels⟩

theorem typed_ladder_refusals_sample : ErrorCode.insufficientLiquidity ≠ .degenerateLevelEntry := by
  have hrun : (sampleRefusedCall.run (.ofClock ⟨5, 100⟩)).1 =
      .error (.code .insufficientLiquidity) := by decide +kernel
  exact (typed_ladder_refusals parseLevels_sample onChain_sample (Prod.ext hrun rfl)).2.1

end Ladder

end SolanaRfq
