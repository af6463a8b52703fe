import SolanaRfq.Format.Parses

/-!
# Truncated inputs

A reader that streams its input decides nothing before it has read the bytes it needs: on a part of
what a successful run consumes, it fails at the end of the input.

* `Spans r pos a w`: the reader reads `a` from `w`, and runs out of bytes on every shorter part;
* `Streams r`: every successful run spans the bytes it consumes; `Advances r`: at least one byte;
* `Streams.bind`, `Streams.many`, `Streams.mapM`, `Streams.peek`: the rules of the combinators;
* **`Streams.truncated`**: every truncation of the consumed bytes is detected.
-/

namespace ByteFormat

variable {ε α β : Type}

theorem run_bind_of_ok {r : Reader ε α} {f : α → Reader ε β} {c c₁ : Cursor} {a : α}
    (h : r.run c = .ok (a, c₁)) : (r >>= f).run c = (f a).run c₁ := by
  rw [StateT.run_bind, h]
  rfl

theorem run_bind_of_error {r : Reader ε α} {f : α → Reader ε β} {c : Cursor} {e : ε}
    (h : r.run c = .error e) : (r >>= f).run c = .error e := by
  rw [StateT.run_bind, h]
  rfl

theorem runReader_of_error {r : Reader ε α} {bytes : List UInt8} {e : ε}
    (h : r.run (Cursor.new bytes) = .error e) : runReader r bytes = .error e := by
  rw [runReader, h]
  rfl

section Eof

variable [EofError ε]

/-- At `pos` the reader reads `a` from `w`, whatever follows, and on a shorter part of `w` it fails
at the end of the input. -/
structure Spans (r : Reader ε α) (pos : ℕ) (a : α) (w : List UInt8) : Prop where
  reads : ∀ tail, r.run ⟨pos, w ++ tail⟩ = .ok (a, ⟨pos + w.length, tail⟩)
  stops : ∀ k < w.length, ∃ expected, pos + k < expected ∧
    r.run ⟨pos, w.take k⟩ = .error (EofError.eof expected (pos + k))

/-- Every successful run spans the bytes it consumes. -/
def Streams (r : Reader ε α) : Prop :=
  ∀ (c : Cursor) (a : α) (c' : Cursor), r.run c = .ok (a, c') →
    ∃ w, c.rest = w ++ c'.rest ∧ c'.pos = c.pos + w.length ∧ Spans r c.pos a w

/-- Every successful run consumes a byte. -/
def Advances (r : Reader ε α) : Prop :=
  ∀ (c : Cursor) (a : α) (c' : Cursor), r.run c = .ok (a, c') → c.pos < c'.pos

/-! ## Sequences -/

theorem Spans.pure (pos : ℕ) (a : α) : Spans (pure a : Reader ε α) pos a [] :=
  ⟨fun _ => rfl, fun _ hk => absurd hk (Nat.not_lt_zero _)⟩

theorem Spans.bind {r : Reader ε α} {f : α → Reader ε β} {pos : ℕ} {a : α} {b : β}
    {u v : List UInt8} (hr : Spans r pos a u) (hf : Spans (f a) (pos + u.length) b v) :
    Spans (r >>= f) pos b (u ++ v) := by
  constructor
  · intro tail
    rw [List.append_assoc, run_bind_of_ok (hr.reads (v ++ tail)), hf.reads tail,
      List.length_append, Nat.add_assoc]
  · intro k hk
    by_cases hku : k < u.length
    · -- the first reader runs out of bytes
      obtain ⟨expected, hlt, herr⟩ := hr.stops k hku
      rw [List.take_append_of_le_length hku.le]
      exact ⟨expected, hlt, run_bind_of_error herr⟩
    · obtain ⟨j, rfl⟩ := Nat.exists_eq_add_of_le (not_lt.mp hku)
      have hj : j < v.length := by
        rw [List.length_append] at hk
        omega
      obtain ⟨expected, hlt, herr⟩ := hf.stops j hj
      rw [List.take_length_add_append, run_bind_of_ok (hr.reads (v.take j)), ← Nat.add_assoc]
      exact ⟨expected, hlt, herr⟩

theorem Streams.pure (a : α) : Streams (pure a : Reader ε α) := by
  intro c b c' h
  obtain ⟨rfl, rfl⟩ := Prod.mk.inj (Except.ok.inj h)
  exact ⟨[], rfl, rfl, Spans.pure _ _⟩

theorem Streams.throw (e : ε) : Streams (throw e : Reader ε α) := by
  intro c a c' h
  cases h

theorem Streams.bind {r : Reader ε α} {f : α → Reader ε β} (hr : Streams r)
    (hf : ∀ a, Streams (f a)) : Streams (r >>= f) := by
  intro c b c' h
  obtain ⟨a, c₁, h₁, h₂⟩ := run_bind_eq_ok.mp h
  obtain ⟨u, hrest, hpos, hu⟩ := hr c a c₁ h₁
  obtain ⟨v, hrest', hpos', hv⟩ := hf a c₁ b c' h₂
  refine ⟨u ++ v, ?_, ?_, hu.bind (hpos ▸ hv)⟩
  · rw [hrest, hrest', List.append_assoc]
  · rw [hpos', hpos, List.length_append, Nat.add_assoc]

theorem Streams.ite {p : Prop} [Decidable p] {r s : Reader ε α} (hr : p → Streams r)
    (hs : ¬ p → Streams s) : Streams (if p then r else s) := by
  split_ifs with h
  · exact hr h
  · exact hs h

theorem Streams.failIf (p : Prop) [Decidable p] (e : ε) :
    Streams (ByteFormat.failIf p e) :=
  Streams.ite (fun _ => Streams.throw e) fun _ => Streams.pure ()

/-! ## Primitives -/

/-- A reader with a known layout streams when it runs out of bytes on every shorter part. -/
theorem Streams.of_parses {r : Reader ε α} {R : α → List UInt8 → Prop} (h : Parses r R)
    (hstops : ∀ pos a w, R a w → ∀ k < w.length, ∃ expected, pos + k < expected ∧
      r.run ⟨pos, w.take k⟩ = .error (EofError.eof expected (pos + k))) : Streams r := by
  intro c a c' hrun
  obtain ⟨w, hw, hrest, hpos⟩ := (h c a c').mp hrun
  exact ⟨w, hrest, hpos, fun tail => (h _ _ _).mpr ⟨w, hw, rfl, rfl⟩, hstops c.pos a w hw⟩

theorem Streams.take (n : ℕ) : Streams (ByteFormat.take n : Reader ε _) := by
  refine Streams.of_parses (Format.take n) fun pos a w hw k hk => ?_
  obtain ⟨rfl, rfl⟩ : w.length = n ∧ w = a := ⟨hw.2 ▸ hw.1, hw.2⟩
  have hlen : (w.take k).length = k := List.length_take_of_le hk.le
  refine ⟨pos + w.length, Nat.add_lt_add_left hk pos, ?_⟩
  show (if w.length ≤ (w.take k).length then _ else _) = _
  rw [hlen, if_neg (not_le.mpr hk)]
  show Except.error (EofError.eof _ (pos + (w.take k).length)) = _
  rw [hlen]

theorem Streams.array (n : ℕ) : Streams (ByteFormat.array n : Reader ε _) := by
  refine Streams.of_parses (Format.array n) fun pos a w hw k hk => ?_
  obtain ⟨-, rfl⟩ := hw
  have hlen : (a.toList.take k).length = k := List.length_take_of_le hk.le
  rw [List.Vector.toList_length] at hk
  refine ⟨pos + n, Nat.add_lt_add_left hk pos, ?_⟩
  show (if h : n ≤ (a.toList.take k).length then _ else _) = _
  rw [dif_neg (by rw [hlen]; exact not_le.mpr hk)]
  show Except.error (EofError.eof _ (pos + (a.toList.take k).length)) = _
  rw [hlen]

theorem Streams.byte : Streams (ByteFormat.byte : Reader ε _) := by
  refine Streams.of_parses Format.byte fun pos a w hw k hk => ?_
  obtain ⟨-, rfl⟩ := hw
  obtain rfl : k = 0 := Nat.lt_one_iff.mp hk
  exact ⟨pos + 1, Nat.lt_succ_self _, rfl⟩

theorem Streams.word (n : ℕ) (f : ℕ → α) : Streams (ByteFormat.word n f : Reader ε α) :=
  (Streams.take n).bind fun _ => Streams.pure _

/-! ## Loops -/

theorem Streams.many {r : Reader ε α} (hr : Streams r) (n : ℕ) : Streams (many r n) := by
  induction n with
  | zero => exact Streams.pure []
  | succ n ih => exact hr.bind fun a => ih.bind fun as => Streams.pure (a :: as)

theorem Streams.mapM {γ : Type} {f : γ → Reader ε α} (hf : ∀ x, Streams (f x)) (xs : List γ) :
    Streams (xs.mapM f) := by
  induction xs with
  | nil => exact Streams.pure []
  | cons x xs ih =>
    rw [List.mapM_cons]
    exact (hf x).bind fun a => ih.bind fun as => Streams.pure (a :: as)

/-! ## Dispatch on the next byte -/

theorem Streams.pos_le {r : Reader ε α} (hr : Streams r) {c c' : Cursor} {a : α}
    (h : r.run c = .ok (a, c')) : c.pos ≤ c'.pos := by
  obtain ⟨w, -, hpos, -⟩ := hr c a c' h
  omega

omit [EofError ε] in
theorem Advances.of_parses {r : Reader ε α} {R : α → List UInt8 → Prop} (h : Parses r R)
    (hne : ∀ a w, R a w → w ≠ []) : Advances r := by
  intro c a c' hrun
  obtain ⟨w, hw, -, hpos⟩ := (h c a c').mp hrun
  have := List.length_pos_of_ne_nil (hne a w hw)
  omega

theorem Streams.bind_advances {r : Reader ε α} {f : α → Reader ε β} (hr : Streams r)
    (hf : ∀ a, Advances (f a)) : Advances (r >>= f) := by
  intro c b c' h
  obtain ⟨a, c₁, h₁, h₂⟩ := run_bind_eq_ok.mp h
  exact (hr.pos_le h₁).trans_lt (hf a c₁ b c' h₂)

theorem Streams.peek {f : UInt8 → Reader ε β} (hf : ∀ b, Streams (f b))
    (hadv : ∀ b, Advances (f b)) : Streams (peek >>= f) := by
  intro c a c' h
  obtain ⟨pos, rest⟩ := c
  cases rest with
  | nil =>
    have hpeek : (ByteFormat.peek : Reader ε UInt8).run ⟨pos, []⟩ =
      .error (EofError.eof (pos + 1) pos) := rfl
    rw [run_bind_of_error hpeek] at h
    cases h
  | cons b rest =>
    have hpeek (tail : List UInt8) : (ByteFormat.peek : Reader ε UInt8).run ⟨pos, b :: tail⟩ =
      .ok (b, ⟨pos, b :: tail⟩) := rfl
    rw [run_bind_of_ok (hpeek rest)] at h
    obtain ⟨w, hrest, hpos, hw⟩ := hf b _ a c' h
    have hne : 0 < w.length := by
      have hlt := hadv b _ a c' h
      dsimp only at hlt hpos
      omega
    obtain ⟨x, w, rfl⟩ := List.exists_cons_of_length_pos hne
    obtain ⟨rfl, htail⟩ := List.cons.inj hrest
    refine ⟨b :: w, hrest, hpos, fun tail => ?_, fun k hk => ?_⟩
    · show (ByteFormat.peek >>= f).run ⟨pos, b :: (w ++ tail)⟩ = _
      rw [run_bind_of_ok (hpeek _)]
      exact hw.reads tail
    · cases k with
      | zero => exact ⟨pos + 1, Nat.lt_succ_self _, rfl⟩
      | succ k =>
        obtain ⟨expected, hlt, herr⟩ := hw.stops (k + 1) hk
        refine ⟨expected, hlt, ?_⟩
        show (ByteFormat.peek >>= f).run ⟨pos, b :: w.take k⟩ = _
        rw [run_bind_of_ok (hpeek _)]
        exact herr

/-! ## Whole inputs -/

/-- **Every truncation of the bytes a run consumes is detected.** -/
theorem Streams.truncated {r : Reader ε α} (hr : Streams r) {bytes : List UInt8} {a : α}
    {c' : Cursor} (h : r.run (Cursor.new bytes) = .ok (a, c')) :
    c'.pos ≤ bytes.length ∧ (c'.rest = [] → c'.pos = bytes.length) ∧ ∀ k < c'.pos, ∃ expected,
      k < expected ∧ r.run (Cursor.new (bytes.take k)) = .error (EofError.eof expected k) := by
  obtain ⟨w, hrest, hpos, hw⟩ := hr _ a c' h
  have hbytes : bytes = w ++ c'.rest := hrest
  have hlen : c'.pos = w.length := hpos.trans (Nat.zero_add _)
  refine ⟨?_, fun hnil => ?_, fun k hk => ?_⟩
  · rw [hlen, hbytes, List.length_append]
    exact Nat.le_add_right _ _
  · rw [hlen, hbytes, hnil, List.append_nil]
  · rw [hlen] at hk
    obtain ⟨expected, hlt, herr⟩ := hw.stops k hk
    rw [show (Cursor.new bytes).pos = 0 from rfl, Nat.zero_add] at hlt herr
    rw [hbytes, List.take_append_of_le_length hk.le]
    exact ⟨expected, hlt, herr⟩

end Eof

end ByteFormat
