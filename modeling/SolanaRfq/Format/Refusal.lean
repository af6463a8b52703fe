import SolanaRfq.Format.Truncation

/-!
# Refused inputs

A reader that reads from left to right does not change its mind: what it refuses it refuses whatever
comes behind, and the end of input that it asks for does not move while the bytes come in.

* `Cursor.extend`: more bytes behind; `Streams.run_extend`: a successful run does not see them;
* `Refuses r c e`: the run at `c` fails with `e`, and so do the runs on longer inputs;
* `Incremental r`: the reader streams, and all its failures are of this kind;
* `Incremental.bind`, `Incremental.many`, `Incremental.mapM`, `Incremental.peek`: the rules of the
  combinators;
* **`Incremental.refusesInput`**: what a refused input says of the inputs that start with it.
-/

namespace ByteFormat

variable {ε α β : Type}

/-- The cursor with more bytes behind it. -/
def Cursor.extend (c : Cursor) (tail : List UInt8) : Cursor := ⟨c.pos, c.rest ++ tail⟩

theorem Cursor.len_extend (c : Cursor) (tail : List UInt8) :
    (c.extend tail).len = c.len + tail.length := by
  simp only [Cursor.len, Cursor.extend, List.length_append, Nat.add_assoc]

section Eof

variable [EofError ε]

theorem Streams.run_extend {r : Reader ε α} (hr : Streams r) {c c' : Cursor} {a : α}
    (h : r.run c = .ok (a, c')) :
    c'.len = c.len ∧ ∀ tail, r.run (c.extend tail) = .ok (a, c'.extend tail) := by
  obtain ⟨w, hrest, hpos, hw⟩ := hr c a c' h
  constructor
  · rw [Cursor.len, Cursor.len, hrest, hpos, List.length_append, Nat.add_assoc]
  · intro tail
    rw [Cursor.extend, hrest, List.append_assoc, hw.reads, ← hpos]
    rfl

/-- The run at `c` fails with `e`: for good, or until the end of input that it asks for. -/
inductive Refuses (r : Reader ε α) (c : Cursor) : ε → Prop
  | final {e : ε} : (∀ tail, r.run (c.extend tail) = .error e) → Refuses r c e
  | waiting {expected : ℕ} : c.len < expected →
      (∀ tail : List UInt8, c.len + tail.length < expected →
        r.run (c.extend tail) = .error (EofError.eof expected (c.len + tail.length))) →
      Refuses r c (EofError.eof expected c.len)

/-- The reader streams, and it does not take back a refusal. -/
structure Incremental (r : Reader ε α) : Prop where
  streams : Streams r
  refuses : ∀ c e, r.run c = .error e → Refuses r c e

/-! ## Sequences -/

theorem Refuses.bind_left {r : Reader ε α} {f : α → Reader ε β} {c : Cursor} {e : ε}
    (h : Refuses r c e) : Refuses (r >>= f) c e := by
  cases h with
  | final hrun => exact .final fun tail => run_bind_of_error (hrun tail)
  | waiting hlt hrun => exact .waiting hlt fun tail ht => run_bind_of_error (hrun tail ht)

theorem Refuses.bind_right {r : Reader ε α} {f : α → Reader ε β} (hr : Streams r) {c c' : Cursor}
    {a : α} {e : ε} (hrun : r.run c = .ok (a, c')) (h : Refuses (f a) c' e) :
    Refuses (r >>= f) c e := by
  obtain ⟨hlen, hext⟩ := hr.run_extend hrun
  cases h with
  | final hf => exact .final fun tail => (run_bind_of_ok (hext tail)).trans (hf tail)
  | waiting hlt hf =>
    rw [hlen] at hlt hf ⊢
    exact .waiting hlt fun tail ht => (run_bind_of_ok (hext tail)).trans (hf tail ht)

namespace Incremental

theorem pure (a : α) : Incremental (pure a : Reader ε α) where
  streams := Streams.pure a
  refuses _ _ h := by cases h

theorem throw (e : ε) : Incremental (throw e : Reader ε α) where
  streams := Streams.throw e
  refuses c e' h := by
    obtain rfl : e = e' := Except.error.inj h
    exact .final fun _ => rfl

theorem bind {r : Reader ε α} {f : α → Reader ε β} (hr : Incremental r)
    (hf : ∀ a, Incremental (f a)) : Incremental (r >>= f) where
  streams := hr.streams.bind fun a => (hf a).streams
  refuses c e h := by
    cases hrun : r.run c with
    | error e' =>
      rw [run_bind_of_error hrun] at h
      obtain rfl : e' = e := Except.error.inj h
      exact (hr.refuses c e' hrun).bind_left
    | ok p =>
      obtain ⟨a, c'⟩ := p
      rw [run_bind_of_ok hrun] at h
      exact .bind_right hr.streams hrun ((hf a).refuses c' e h)

theorem ite {p : Prop} [Decidable p] {r s : Reader ε α} (hr : p → Incremental r)
    (hs : ¬ p → Incremental s) : Incremental (if p then r else s) := by
  split_ifs with h
  · exact hr h
  · exact hs h

theorem failIf (p : Prop) [Decidable p] (e : ε) : Incremental (ByteFormat.failIf p e) :=
  ite (fun _ => throw e) fun _ => pure ()

/-! ## Primitives -/

theorem of_short {r : Reader ε α} (hr : Streams r) (n : ℕ)
    (hshort : ∀ c, c.rest.length < n → r.run c = .error (EofError.eof (c.pos + n) c.len))
    (hfails : ∀ c e, r.run c = .error e → c.rest.length < n) : Incremental r where
  streams := hr
  refuses c e h := by
    have hlen := hfails c e h
    obtain rfl := Except.error.inj ((hshort c hlen).symm.trans h)
    refine .waiting (Nat.add_lt_add_left hlen c.pos) fun tail ht => ?_
    rw [← Cursor.len_extend] at ht ⊢
    exact hshort (c.extend tail) (Nat.lt_of_add_lt_add_left ht)

theorem take (n : ℕ) : Incremental (ByteFormat.take n : Reader ε _) := by
  refine of_short (Streams.take n) n (fun c hc => if_neg (not_le.mpr hc)) fun c e h => ?_
  by_contra hlen
  have hok : (ByteFormat.take n : Reader ε _).run c = .ok _ := if_pos (not_lt.mp hlen)
  rw [hok] at h
  cases h

theorem array (n : ℕ) : Incremental (ByteFormat.array n : Reader ε _) := by
  refine of_short (Streams.array n) n (fun c hc => dif_neg (not_le.mpr hc)) fun c e h => ?_
  by_contra hlen
  have hok : (ByteFormat.array n : Reader ε _).run c = .ok _ := dif_pos (not_lt.mp hlen)
  rw [hok] at h
  cases h

theorem byte : Incremental (ByteFormat.byte : Reader ε _) := by
  refine of_short Streams.byte 1 (fun c hc => ?_) fun c e h => ?_
  · obtain ⟨pos, rest⟩ := c
    obtain rfl : rest = [] := List.length_eq_zero_iff.mp (Nat.lt_one_iff.mp hc)
    rfl
  · obtain ⟨pos, rest⟩ := c
    cases rest with
    | nil => exact Nat.one_pos
    | cons b rest => cases h

theorem word (n : ℕ) (f : ℕ → α) : Incremental (ByteFormat.word n f : Reader ε α) :=
  (take n).bind fun _ => pure _

/-! ## Loops -/

theorem many {r : Reader ε α} (hr : Incremental r) (n : ℕ) :
    Incremental (ByteFormat.many r n) := by
  induction n with
  | zero => exact pure []
  | succ n ih => exact hr.bind fun a => ih.bind fun as => pure (a :: as)

theorem mapM {γ : Type} {f : γ → Reader ε α} (hf : ∀ x, Incremental (f x)) (xs : List γ) :
    Incremental (xs.mapM f) := by
  induction xs with
  | nil => exact pure []
  | cons x xs ih =>
    rw [List.mapM_cons]
    exact (hf x).bind fun a => ih.bind fun as => pure (a :: as)

theorem peek {f : UInt8 → Reader ε β} (hf : ∀ b, Incremental (f b))
    (hadv : ∀ b, Advances (f b)) : Incremental (peek >>= f) where
  streams := Streams.peek (fun b => (hf b).streams) hadv
  refuses c e h := by
    obtain ⟨pos, rest⟩ := c
    cases rest with
    | nil =>
      obtain rfl := Except.error.inj h
      refine .waiting (Nat.lt_succ_self _) fun tail ht => ?_
      obtain rfl : tail = [] := List.length_eq_zero_iff.mp (by
        rw [Cursor.len, List.length_nil] at ht
        omega)
      rfl
    | cons b rest =>
      cases (hf b).refuses ⟨pos, b :: rest⟩ e h with
      | final hrun => exact .final hrun
      | waiting hlt hrun => exact .waiting hlt hrun

end Incremental

/-! ## Whole inputs -/

omit [EofError ε] in
theorem runReader_eq_error_iff {r : Reader ε α} {bytes : List UInt8} {e : ε} :
    runReader r bytes = .error e ↔ r.run (Cursor.new bytes) = .error e := by
  unfold runReader
  cases r.run (Cursor.new bytes) with
  | error e' => simp [Except.map]
  | ok p => simp [Except.map]

/-- What `parse` says of the inputs that start with a refused one. -/
inductive RefusesInput (parse : List UInt8 → Except ε α) (bytes : List UInt8) : ε → Prop
  | final {e : ε} : (∀ tail, parse (bytes ++ tail) = .error e) → RefusesInput parse bytes e
  | waiting {expected : ℕ} : bytes.length < expected →
      (∀ tail : List UInt8, bytes.length + tail.length < expected →
        parse (bytes ++ tail) = .error (EofError.eof expected (bytes.length + tail.length))) →
      RefusesInput parse bytes (EofError.eof expected bytes.length)

theorem Refuses.refusesInput {r : Reader ε α} {bytes : List UInt8} {e : ε}
    (h : Refuses r (Cursor.new bytes) e) : RefusesInput (runReader r) bytes e := by
  have hlen : (Cursor.new bytes).len = bytes.length := Nat.zero_add _
  cases h with
  | final hrun => exact .final fun tail => runReader_of_error (hrun tail)
  | waiting hlt hrun =>
    rw [hlen] at hlt hrun ⊢
    exact .waiting hlt fun tail ht => runReader_of_error (hrun tail ht)

/-- **A refused input**, and the inputs that start with it. -/
theorem Incremental.refusesInput {r : Reader ε α} (hr : Incremental r) {bytes : List UInt8} {e : ε}
    (h : runReader r bytes = .error e) : RefusesInput (runReader r) bytes e :=
  (hr.refuses _ e (runReader_eq_error_iff.mp h)).refusesInput

/-- A reader that must reach the end: what comes behind a value does not go away. -/
theorem Incremental.refusesInput_expectEnd {r : Reader ε α} (hr : Incremental r) (eEnd : ε)
    {bytes : List UInt8} {e : ε}
    (h : runReader (r >>= fun a => expectEnd eEnd >>= fun _ => Pure.pure a) bytes = .error e) :
    RefusesInput (runReader (r >>= fun a => expectEnd eEnd >>= fun _ => Pure.pure a)) bytes e := by
  refine Refuses.refusesInput ?_
  rw [runReader_eq_error_iff] at h
  cases hrun : r.run (Cursor.new bytes) with
  | error e' =>
    rw [run_bind_of_error hrun] at h
    obtain rfl : e' = e := Except.error.inj h
    exact (hr.refuses _ e' hrun).bind_left
  | ok p =>
    obtain ⟨a, c'⟩ := p
    rw [run_bind_of_ok hrun, run_expectEnd_pure] at h
    split_ifs at h with hrest
    obtain rfl : eEnd = e := Except.error.inj h
    refine .bind_right hr.streams hrun (.final fun tail => ?_)
    rw [run_expectEnd_pure, if_neg]
    exact fun hnil => hrest (List.append_eq_nil_iff.mp hnil).1

end Eof

end ByteFormat
