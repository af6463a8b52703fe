import SolanaRfq.Format.Reader

/-!
# What a reader accepts

`Parses r R` says that `r` returns `a` exactly on the inputs that start with a string `w` related
to `a` by `R`, and that it then consumes `w` and nothing else. `Format r ok enc` is the case of one
string per value: the well-formed values are those with `ok`, and `enc` writes them.

* `Parses.pure`, `Parses.bind`, `Parses.failIf`, `Parses.ite`, `Parses.peek`: the rules of the combinators;
* `Format.take`, `Format.byte`, `Format.array`, `Format.word`, `Format.u16`, `Format.u32`,
  `Format.u64`: the primitives;
* `Format.mapM`, `Parses.many`, `Format.many`: loops;
* **`Format.runReader_eq_ok`**: a whole-input run succeeds exactly on the encodings, with any tail;
* `Format.consumed_eq_ok`: the bytes consumed are the encoding of the value returned;
* **`Format.enc_inj_of_append`**: no encoding is a proper prefix of another; `Parses.forall₂_inj`: the
  strings of a loop are determined.
-/

namespace ByteFormat

variable {ε α β : Type}

/-- `r` accepts exactly the strings `R` relates to a value, and consumes no more. -/
def Parses (r : Reader ε α) (R : α → List UInt8 → Prop) : Prop :=
  ∀ (c : Cursor) (a : α) (c' : Cursor), r.run c = .ok (a, c') ↔
    ∃ w, R a w ∧ c.rest = w ++ c'.rest ∧ c'.pos = c.pos + w.length

/-- `r` reads the values with `ok`, each written by `enc`. -/
def Format (r : Reader ε α) (ok : α → Prop) (enc : α → List UInt8) : Prop :=
  Parses r fun a w => ok a ∧ w = enc a

theorem Parses.congr {r : Reader ε α} {R S : α → List UInt8 → Prop} (h : Parses r R)
    (hRS : ∀ a w, R a w ↔ S a w) : Parses r S := by
  intro c a c'
  rw [h c a c']
  exact exists_congr fun w => and_congr_left fun _ => hRS a w

theorem run_bind_eq_ok {r : Reader ε α} {f : α → Reader ε β} {c c' : Cursor} {b : β} :
    (r >>= f).run c = .ok (b, c') ↔ ∃ a c₁, r.run c = .ok (a, c₁) ∧ (f a).run c₁ = .ok (b, c') := by
  rw [StateT.run_bind]
  cases h : r.run c with
  | error e => simp [bind, Except.bind]
  | ok p => simp [bind, Except.bind, Prod.ext_iff]

/-! ## Combinators -/

theorem Parses.pure (a : α) : Parses (pure a : Reader ε α) fun b w => b = a ∧ w = [] := by
  intro c b c'
  rw [StateT.run_pure]
  constructor
  · intro h
    cases h
    exact ⟨[], ⟨rfl, rfl⟩, rfl, rfl⟩
  · rintro ⟨w, ⟨rfl, rfl⟩, hrest, hpos⟩
    rw [show c' = c from Cursor.ext hpos hrest.symm]
    rfl

theorem Parses.bind {r : Reader ε α} {f : α → Reader ε β} {R : α → List UInt8 → Prop}
    {S : α → β → List UInt8 → Prop} (hr : Parses r R) (hf : ∀ a w, R a w → Parses (f a) (S a)) :
    Parses (r >>= f) fun b w => ∃ a u v, R a u ∧ S a b v ∧ w = u ++ v := by
  intro c b c'
  rw [run_bind_eq_ok]
  constructor
  · rintro ⟨a, c₁, h₁, h₂⟩
    obtain ⟨u, hu, hc, hp⟩ := (hr c a c₁).mp h₁
    obtain ⟨v, hv, hc', hp'⟩ := (hf a u hu c₁ b c').mp h₂
    refine ⟨u ++ v, ⟨a, u, v, hu, hv, rfl⟩, ?_, ?_⟩
    · rw [hc, hc', List.append_assoc]
    · rw [hp', hp, List.length_append, Nat.add_assoc]
  · rintro ⟨w, ⟨a, u, v, hu, hv, rfl⟩, hc, hp⟩
    refine ⟨a, ⟨c.pos + u.length, v ++ c'.rest⟩, (hr _ _ _).mpr ⟨u, hu, ?_, rfl⟩,
      (hf a u hu _ _ _).mpr ⟨v, hv, rfl, ?_⟩⟩
    · rw [hc, List.append_assoc]
    · rw [hp, List.length_append, Nat.add_assoc]

theorem Format.bind {r : Reader ε α} {f : α → Reader ε β} {ok : α → Prop} {enc : α → List UInt8}
    {S : α → β → List UInt8 → Prop} (hr : Format r ok enc) (hf : ∀ a, ok a → Parses (f a) (S a)) :
    Parses (r >>= f) fun b w => ∃ a, ok a ∧ ∃ v, S a b v ∧ w = enc a ++ v := by
  refine (Parses.bind hr fun a w h => hf a h.1).congr fun b w => ?_
  constructor
  · rintro ⟨a, _, v, ⟨ha, rfl⟩, hv, rfl⟩
    exact ⟨a, ha, v, hv, rfl⟩
  · rintro ⟨a, ha, v, hv, rfl⟩
    exact ⟨a, enc a, v, ⟨ha, rfl⟩, hv, rfl⟩

theorem run_failIf_bind_of_not {p : Prop} [Decidable p] {e : ε} {f : Unit → Reader ε β} {c : Cursor}
    (h : ¬ p) : (failIf p e >>= f).run c = (f ()).run c := by
  rw [failIf, if_neg h, pure_bind]

theorem run_failIf_bind_eq_ok {p : Prop} [Decidable p] {e : ε} {f : Unit → Reader ε β}
    {c c' : Cursor} {b : β} :
    (failIf p e >>= f).run c = .ok (b, c') ↔ ¬ p ∧ (f ()).run c = .ok (b, c') := by
  by_cases h : p
  · rw [failIf, if_pos h, show (throw e >>= f : Reader ε β).run c = .error e from rfl]
    simp [h]
  · rw [run_failIf_bind_of_not h]
    simp [h]

theorem Parses.failIf {p : Prop} [Decidable p] {e : ε} {f : Unit → Reader ε β}
    {S : β → List UInt8 → Prop} (hf : ¬ p → Parses (f ()) S) :
    Parses (failIf p e >>= f) fun b w => ¬ p ∧ S b w := by
  intro c b c'
  rw [run_failIf_bind_eq_ok]
  by_cases hp : p
  · simp [hp]
  · rw [hf hp c b c']
    simp [hp]

theorem Parses.failIf_unit (p : Prop) [Decidable p] (e : ε) :
    Parses (ByteFormat.failIf p e) fun _ w => ¬ p ∧ w = [] := by
  have h : Parses (ByteFormat.failIf p e >>= Pure.pure) fun _ w => ¬ p ∧ () = () ∧ w = [] :=
    Parses.failIf fun _ => Parses.pure ()
  rw [bind_pure] at h
  exact h.congr fun _ w => and_congr_right fun _ => and_iff_right rfl

theorem Parses.ite {p : Prop} [Decidable p] {r s : Reader ε α} {R S : α → List UInt8 → Prop}
    (hr : p → Parses r R) (hs : ¬ p → Parses s S) :
    Parses (if p then r else s) fun a w => (p ∧ R a w) ∨ (¬ p ∧ S a w) := by
  intro c a c'
  by_cases hp : p
  · rw [if_pos hp, hr hp c a c']
    simp [hp]
  · rw [if_neg hp, hs hp c a c']
    simp [hp]

theorem Parses.throw (e : ε) : Parses (throw e : Reader ε α) fun _ _ => False := by
  intro c a c'
  rw [show (MonadExcept.throw e : Reader ε α).run c = .error e from rfl]
  simp

section Eof

variable [EofError ε]

/-- A dispatch on the next byte, which the chosen branch then reads. -/
theorem Parses.peek {f : UInt8 → Reader ε β} {S : UInt8 → β → List UInt8 → Prop}
    (hf : ∀ b, Parses (f b) (S b)) (hne : ∀ b a w, S b a w → w ≠ []) :
    Parses (peek >>= f) fun a w => ∃ b, w.head? = some b ∧ S b a w := by
  intro c a c'
  obtain ⟨pos, rest⟩ := c
  rw [run_bind_eq_ok]
  cases rest with
  | nil =>
    constructor
    · rintro ⟨b, c₁, h₁, -⟩
      exact absurd h₁ (by simp [ByteFormat.peek, StateT.run])
    · rintro ⟨w, ⟨b, -, hw⟩, hc, -⟩
      exact absurd (List.append_eq_nil_iff.mp hc.symm).1 (hne b a w hw)
  | cons b rest =>
    have hpeek : (ByteFormat.peek : Reader ε UInt8).run ⟨pos, b :: rest⟩ =
      .ok (b, ⟨pos, b :: rest⟩) := rfl
    constructor
    · rintro ⟨b', c₁, h₁, h₂⟩
      rw [hpeek] at h₁
      cases h₁
      obtain ⟨w, hw, hc, hp⟩ := (hf b _ _ _).mp h₂
      refine ⟨w, ⟨b, ?_, hw⟩, hc, hp⟩
      cases w with
      | nil => exact absurd rfl (hne b a [] hw)
      | cons x w =>
        have := (List.cons.inj hc).1
        simp [this]
    · rintro ⟨w, ⟨b', hb, hw⟩, hc, hp⟩
      obtain rfl : b = b' := by
        cases w with
        | nil => simp at hb
        | cons x w =>
          have := (List.cons.inj hc).1
          simpa [this] using hb
      exact ⟨b, _, hpeek, (hf b _ _ _).mpr ⟨w, hw, hc, hp⟩⟩

/-! ## Primitives -/

theorem Format.take (n : ℕ) : Format (take n : Reader ε _) (fun w => w.length = n) id := by
  intro c a c'
  obtain ⟨pos, rest⟩ := c
  constructor
  · intro h
    simp only [ByteFormat.take, StateT.run] at h
    split_ifs at h with hn
    cases h
    exact ⟨rest.take n, ⟨by simp [hn], rfl⟩, (List.take_append_drop n rest).symm, by simp [hn]⟩
  · rintro ⟨w, ⟨rfl, rfl⟩, hc, hp⟩
    subst hc
    simp only [ByteFormat.take, StateT.run, List.length_append, Nat.le_add_right, if_true,
      List.take_left, List.drop_left]
    exact congrArg Except.ok (Prod.ext rfl (Cursor.ext (by simpa using hp.symm) rfl))

theorem Format.byte : Format (byte : Reader ε _) (fun _ => True) fun b => [b] := by
  intro c a c'
  obtain ⟨pos, rest⟩ := c
  constructor
  · intro h
    cases rest with
    | nil => simp [ByteFormat.byte, StateT.run] at h
    | cons b rest =>
      simp only [ByteFormat.byte, StateT.run] at h
      cases h
      exact ⟨[a], ⟨trivial, rfl⟩, rfl, rfl⟩
  · rintro ⟨w, ⟨-, rfl⟩, hc, hp⟩
    subst hc
    exact congrArg Except.ok (Prod.ext rfl (Cursor.ext hp.symm rfl))

theorem Format.array (n : ℕ) :
    Format (array n : Reader ε _) (fun _ => True) List.Vector.toList := by
  intro c a c'
  obtain ⟨pos, rest⟩ := c
  constructor
  · intro h
    simp only [ByteFormat.array, StateT.run] at h
    split_ifs at h with hn
    cases h
    exact ⟨rest.take n, ⟨trivial, rfl⟩, (List.take_append_drop n rest).symm, by simp [hn]⟩
  · rintro ⟨w, ⟨-, rfl⟩, hc, hp⟩
    subst hc
    obtain ⟨w, rfl⟩ := a
    simp only [ByteFormat.array, StateT.run, List.Vector.toList_mk, List.length_append,
      Nat.le_add_right, dif_pos, List.take_left, List.drop_left]
    exact congrArg Except.ok (Prod.ext rfl (Cursor.ext (by simpa using hp.symm) rfl))

theorem Format.word {n : ℕ} {f : ℕ → α} {g : α → ℕ} (hg : ∀ a, g a < 256 ^ n)
    (hgf : ∀ v < 256 ^ n, g (f v) = v) (hfg : ∀ a, f (g a) = a) :
    Format (word n f : Reader ε _) (fun _ => True) fun a => toLE n (g a) := by
  refine ((Format.take n).bind fun w _ => Parses.pure (f (ofLE w))).congr fun a w => ?_
  constructor
  · rintro ⟨u, hu, _, ⟨rfl, rfl⟩, rfl⟩
    have hlt : ofLE u < 256 ^ n := hu ▸ ofLE_lt u
    simp only [hgf _ hlt, id_eq, List.append_nil, true_and]
    exact (ofLE_eq_iff hlt u).mp ⟨hu, rfl⟩
  · rintro ⟨-, rfl⟩
    obtain ⟨hlen, hval⟩ := (ofLE_eq_iff (hg a) _).mpr rfl
    exact ⟨_, hlen, [], ⟨by rw [hval, hfg], rfl⟩, by simp⟩

theorem Format.u16 : Format (ByteFormat.word 2 UInt16.ofNat : Reader ε _) (fun _ => True)
    fun v => toLE 2 v.toNat :=
  Format.word (fun v => v.toNat_lt)
    (fun v hv => by rw [UInt16.toNat_ofNat']; exact Nat.mod_eq_of_lt hv)
    (fun _ => UInt16.ofNat_toNat)

theorem Format.u32 : Format (ByteFormat.word 4 UInt32.ofNat : Reader ε _) (fun _ => True)
    fun v => toLE 4 v.toNat :=
  Format.word (fun v => v.toNat_lt)
    (fun v hv => by rw [UInt32.toNat_ofNat']; exact Nat.mod_eq_of_lt hv)
    (fun _ => UInt32.ofNat_toNat)

theorem Format.u64 : Format (ByteFormat.word 8 UInt64.ofNat : Reader ε _) (fun _ => True)
    fun v => toLE 8 v.toNat :=
  Format.word (fun v => v.toNat_lt)
    (fun v hv => by rw [UInt64.toNat_ofNat']; exact Nat.mod_eq_of_lt hv)
    (fun _ => UInt64.ofNat_toNat)

end Eof

/-! ## Loops -/

/-- A loop over `xs` whose body at `x` reads a value with `ok x`. -/
theorem Format.mapM {γ : Type} {f : γ → Reader ε α} {ok : γ → α → Prop} {enc : α → List UInt8}
    (hf : ∀ x, Format (f x) (ok x) enc) (xs : List γ) :
    Format (xs.mapM f) (List.Forall₂ ok xs) fun as => as.flatMap enc := by
  induction xs with
  | nil =>
    rw [List.mapM_nil]
    refine (Parses.pure []).congr fun as w => ?_
    rw [List.forall₂_nil_left_iff]
    exact and_congr_right fun h => by rw [h]; rfl
  | cons x xs ih =>
    rw [List.mapM_cons]
    refine ((hf x).bind fun a _ => Format.bind ih fun as _ =>
      Parses.pure (a :: as)).congr fun bs w => ?_
    constructor
    · rintro ⟨a, ha, _, ⟨as, has, _, ⟨rfl, rfl⟩, rfl⟩, rfl⟩
      exact ⟨List.Forall₂.cons ha has, by simp⟩
    · rintro ⟨hbs, rfl⟩
      obtain ⟨a, as, ha, has, rfl⟩ := List.forall₂_cons_left_iff.mp hbs
      exact ⟨a, ha, _, ⟨as, has, [], ⟨rfl, rfl⟩, rfl⟩, by simp⟩

theorem Parses.many {r : Reader ε α} {R : α → List UInt8 → Prop} (hr : Parses r R) (n : ℕ) :
    Parses (many r n) fun as w =>
      as.length = n ∧ ∃ ws, List.Forall₂ R as ws ∧ w = ws.flatten := by
  induction n with
  | zero =>
    refine (Parses.pure []).congr fun as w => ?_
    constructor
    · rintro ⟨rfl, rfl⟩
      exact ⟨rfl, [], List.Forall₂.nil, rfl⟩
    · rintro ⟨hlen, ws, hws, rfl⟩
      obtain rfl := List.length_eq_zero_iff.mp hlen
      rw [List.forall₂_nil_left_iff.mp hws]
      exact ⟨rfl, rfl⟩
  | succ n ih =>
    refine (hr.bind fun a _ _ => ih.bind fun as _ _ =>
      Parses.pure (a :: as)).congr fun bs w => ?_
    constructor
    · rintro ⟨a, u, _, hu, ⟨as, _, _, ⟨hlen, ws, hws, rfl⟩, ⟨rfl, rfl⟩, rfl⟩, rfl⟩
      exact ⟨by simp [hlen], u :: ws, List.Forall₂.cons hu hws, by simp⟩
    · rintro ⟨hlen, ws, hws, rfl⟩
      obtain ⟨a, as, rfl⟩ := List.exists_cons_of_length_eq_add_one hlen
      obtain ⟨u, us, hu, hus, rfl⟩ := List.forall₂_cons_left_iff.mp hws
      exact ⟨a, u, _, hu, ⟨as, _, [], ⟨by simpa using hlen, us, hus, rfl⟩, ⟨rfl, rfl⟩, rfl⟩,
        by simp⟩

theorem forall₂_enc_iff {γ : Type} {ok : α → Prop} {enc : α → γ} {as : List α} {ws : List γ} :
    List.Forall₂ (fun a w => ok a ∧ w = enc a) as ws ↔ (∀ a ∈ as, ok a) ∧ ws = as.map enc := by
  have hflip : List.Forall₂ (fun a w => w = enc a) as ws ↔
      List.Forall₂ (fun w a => w = enc a) ws as := ⟨List.Forall₂.flip, List.Forall₂.flip⟩
  rw [List.forall₂_and_left, hflip, ← List.forall₂_map_right_iff, List.forall₂_eq_eq_eq]

theorem Format.many {r : Reader ε α} {ok : α → Prop} {enc : α → List UInt8} (hr : Format r ok enc)
    (n : ℕ) :
    Format (many r n) (fun as => as.length = n ∧ ∀ a ∈ as, ok a) fun as => as.flatMap enc := by
  refine (Parses.many hr n).congr fun as w => ?_
  simp only [forall₂_enc_iff]
  constructor
  · rintro ⟨hlen, _, ⟨hok, rfl⟩, rfl⟩
    exact ⟨⟨hlen, hok⟩, List.flatMap_def.symm⟩
  · rintro ⟨⟨hlen, hok⟩, rfl⟩
    exact ⟨hlen, _, ⟨hok, rfl⟩, List.flatMap_def⟩

/-! ## Whole inputs -/

section Whole

variable {r : Reader ε α} {ok : α → Prop} {enc : α → List UInt8}

theorem runReader_eq_ok_iff {bytes : List UInt8} {a : α} :
    runReader r bytes = .ok a ↔ ∃ c', r.run (Cursor.new bytes) = .ok (a, c') := by
  unfold runReader
  cases r.run (Cursor.new bytes) with
  | error e => simp [Except.map]
  | ok p => simp [Except.map, Prod.ext_iff]

theorem Parses.runReader_eq_ok {R : α → List UInt8 → Prop} (h : Parses r R) {bytes : List UInt8}
    {a : α} : runReader r bytes = .ok a ↔ ∃ w tail, R a w ∧ bytes = w ++ tail := by
  rw [runReader_eq_ok_iff]
  constructor
  · rintro ⟨c', hrun⟩
    obtain ⟨w, hw, hc, -⟩ := (h _ _ _).mp hrun
    exact ⟨w, c'.rest, hw, hc⟩
  · rintro ⟨w, tail, hw, rfl⟩
    exact ⟨⟨0 + w.length, tail⟩, (h _ _ _).mpr ⟨w, hw, rfl, rfl⟩⟩

/-- **A whole-input run succeeds exactly on an encoding followed by any tail.** -/
theorem Format.runReader_eq_ok (h : Format r ok enc) {bytes : List UInt8} {a : α} :
    runReader r bytes = .ok a ↔ ok a ∧ ∃ tail, bytes = enc a ++ tail := by
  rw [Parses.runReader_eq_ok h]
  constructor
  · rintro ⟨w, tail, ⟨ha, rfl⟩, rfl⟩
    exact ⟨ha, tail, rfl⟩
  · rintro ⟨ha, tail, rfl⟩
    exact ⟨enc a, tail, ⟨ha, rfl⟩, rfl⟩

theorem Format.consumed_eq_ok (h : Format r ok enc) {bytes : List UInt8} {a : α} {w : List UInt8} :
    consumed r bytes = .ok (a, w) ↔ ok a ∧ w = enc a ∧ ∃ tail, bytes = enc a ++ tail := by
  have hmap : consumed r bytes = .ok (a, w) ↔
      ∃ c', r.run (Cursor.new bytes) = .ok (a, c') ∧ w = bytes.take c'.pos := by
    unfold consumed
    cases r.run (Cursor.new bytes) with
    | error e => simp [Except.map]
    | ok p => simp [Except.map, Prod.ext_iff, eq_comm, and_assoc]
  rw [hmap]
  constructor
  · rintro ⟨c', hrun, rfl⟩
    obtain ⟨_, ⟨ha, rfl⟩, hc, hp⟩ := (h _ _ _).mp hrun
    have hpos : c'.pos = (enc a).length := hp.trans (Nat.zero_add _)
    have hbytes : bytes = enc a ++ c'.rest := hc
    exact ⟨ha, by rw [hpos, hbytes, List.take_left], c'.rest, hbytes⟩
  · rintro ⟨ha, rfl, tail, rfl⟩
    refine ⟨⟨0 + (enc a).length, tail⟩, (h _ _ _).mpr ⟨enc a, ⟨ha, rfl⟩, rfl, rfl⟩, ?_⟩
    rw [Nat.zero_add, List.take_left]

theorem runReader_peek (f : UInt8 → Reader ε α) [EofError ε] (b : UInt8) (bytes : List UInt8) :
    runReader (ByteFormat.peek >>= f) (b :: bytes) = runReader (f b) (b :: bytes) := rfl

theorem runReader_failIf_eq_ok {p : Prop} [Decidable p] {e : ε} {f : Unit → Reader ε α}
    {bytes : List UInt8} {a : α} :
    runReader (ByteFormat.failIf p e >>= f) bytes = .ok a ↔
      ¬ p ∧ runReader (f ()) bytes = .ok a := by
  simp only [runReader_eq_ok_iff, run_failIf_bind_eq_ok, exists_and_left]

theorem run_expectEnd_pure (e : ε) (b : α) (c : Cursor) :
    (expectEnd e >>= fun _ => Pure.pure b : Reader ε α).run c =
      if c.rest = [] then .ok (b, c) else .error e := by
  obtain ⟨pos, rest⟩ := c
  cases rest <;> rfl

theorem Parses.runReader_expectEnd {R : α → List UInt8 → Prop} (h : Parses r R) (e : ε)
    (bytes : List UInt8) (a : α) :
    runReader (r >>= fun b => expectEnd e >>= fun _ => Pure.pure b) bytes = .ok a ↔
      R a bytes := by
  simp only [runReader_eq_ok_iff, run_bind_eq_ok, run_expectEnd_pure]
  constructor
  · rintro ⟨c', b, c₁, h₁, h₂⟩
    split_ifs at h₂ with hrest
    cases h₂
    obtain ⟨w, hw, hc, -⟩ := (h _ _ _).mp h₁
    rw [hrest, List.append_nil] at hc
    rwa [show bytes = w from hc]
  · intro hR
    have h₁ := (h (Cursor.new bytes) a ⟨0 + bytes.length, []⟩).mpr
      ⟨bytes, hR, (List.append_nil bytes).symm, rfl⟩
    exact ⟨_, a, _, h₁, if_pos rfl⟩

/-- A string a value is read from is no proper prefix of another. -/
theorem Parses.inj_of_append {R : α → List UInt8 → Prop} (h : Parses r R) {a b : α}
    {u v s t : List UInt8} (hu : R a u) (hv : R b v) (hst : u ++ s = v ++ t) : a = b ∧ s = t := by
  have h₁ := (h (Cursor.new (u ++ s)) a ⟨0 + u.length, s⟩).mpr ⟨u, hu, rfl, rfl⟩
  have h₂ := (h (Cursor.new (u ++ s)) b ⟨0 + v.length, t⟩).mpr ⟨v, hv, hst, rfl⟩
  rw [h₁] at h₂
  obtain ⟨hab, hc⟩ := Prod.ext_iff.mp (Except.ok.inj h₂)
  exact ⟨hab, congrArg Cursor.rest hc⟩

/-- The strings that a loop reads its values from are determined by the input. -/
theorem Parses.forall₂_inj {R : α → List UInt8 → Prop} (h : Parses r R) {as bs : List α}
    {us vs : List (List UInt8)} {s t : List UInt8} (hu : List.Forall₂ R as us)
    (hv : List.Forall₂ R bs vs) (hlen : as.length = bs.length)
    (hst : us.flatten ++ s = vs.flatten ++ t) : as = bs ∧ us = vs ∧ s = t := by
  induction hu generalizing bs vs with
  | nil =>
    obtain rfl := List.length_eq_zero_iff.mp hlen.symm
    obtain rfl := List.forall₂_nil_left_iff.mp hv
    exact ⟨rfl, rfl, hst⟩
  | cons ha _ ih =>
    obtain ⟨b, bs, rfl⟩ := List.exists_cons_of_length_eq_add_one hlen.symm
    obtain ⟨v, vs, hb, hvs, rfl⟩ := List.forall₂_cons_left_iff.mp hv
    rw [List.flatten_cons, List.flatten_cons, List.append_assoc, List.append_assoc] at hst
    obtain ⟨rfl, hrest⟩ := Parses.inj_of_append h ha hb hst
    rw [hrest] at hst
    obtain rfl := List.append_cancel_right hst
    obtain ⟨rfl, rfl, hs⟩ := ih hvs (Nat.succ_injective hlen) hrest
    exact ⟨rfl, rfl, hs⟩

/-- **No encoding is a proper prefix of another.** -/
theorem Format.enc_inj_of_append (h : Format r ok enc) {a b : α} (ha : ok a) (hb : ok b)
    {s t : List UInt8} (hst : enc a ++ s = enc b ++ t) : a = b ∧ s = t :=
  Parses.inj_of_append h ⟨ha, rfl⟩ ⟨hb, rfl⟩ hst

end Whole

end ByteFormat
