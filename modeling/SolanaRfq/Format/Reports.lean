import SolanaRfq.Format.Checklist
import SolanaRfq.Format.Parses

/-!
# What a reader reports

A reader can check what it reads. On a string that spells a value, the value may fail these checks: then
the reader stops at the first one that fails, whatever comes behind.

* `Reports r w tail cs a`: on `w`, with `tail` behind it, `r` returns `a` if the conditions `cs` pass,
  and fails with the error of the first one that fails otherwise;
* `Parses.reports`, `Reports.ofFormat`, `Reports.failIf`, `Reports.expectEnd`, **`Reports.bind`**,
  `Reports.mapM`: the rules of the combinators;
* `Reports.runReader`: what a run on the whole input reports.
-/

namespace ByteFormat

open Checklist

variable {ε α β : Type}

/-- On `w`, with `tail` behind it, the reader works through the conditions and returns `a`. -/
structure Reports (r : Reader ε α) (w tail : List UInt8) (cs : List (Condition ε)) (a : α) :
    Prop where
  ok : Passes cs → ∀ pos, r.run ⟨pos, w ++ tail⟩ = .ok (a, ⟨pos + w.length, tail⟩)
  error : ∀ e, FirstFailing cs e → ∀ pos, r.run ⟨pos, w ++ tail⟩ = .error e

theorem Parses.reports {r : Reader ε α} {R : α → List UInt8 → Prop} (h : Parses r R) {a : α}
    {w : List UInt8} (hw : R a w) (tail : List UInt8) : Reports r w tail [] a where
  ok _ _ := (h _ _ _).mpr ⟨w, hw, rfl, rfl⟩
  error _ he := absurd he not_firstFailing_nil

theorem Format.reports {r : Reader ε α} {ok : α → Prop} {enc : α → List UInt8}
    (h : Format r ok enc) {a : α} (ha : ok a) (tail : List UInt8) : Reports r (enc a) tail [] a :=
  Parses.reports h ⟨ha, rfl⟩ tail

namespace Reports

variable {r : Reader ε α} {f : α → Reader ε β} {w u v tail : List UInt8}
  {cs cs' : List (Condition ε)} {a : α} {b : β}

theorem expectEnd (e : ε) (tail : List UInt8) :
    Reports (ByteFormat.expectEnd e) [] tail [⟨tail = [], e⟩] () where
  ok hpass pos := if_pos (hpass _ List.mem_cons_self)
  error e' he pos := by
    rcases firstFailing_cons_iff.mp he with ⟨htail, rfl⟩ | ⟨-, he⟩
    · exact if_neg htail
    · exact absurd he not_firstFailing_nil

/-- **One reader after the other**: the second one is reached if the conditions of the first pass. -/
theorem bind (hr : Reports r u (v ++ tail) cs a) (hf : Passes cs → Reports (f a) v tail cs' b) :
    Reports (r >>= f) (u ++ v) tail (cs ++ cs') b where
  ok hpass pos := by
    have hcs : Passes cs := fun c hc => hpass c (List.mem_append_left _ hc)
    have hcs' : Passes cs' := fun c hc => hpass c (List.mem_append_right _ hc)
    rw [run_bind_eq_ok, List.append_assoc, List.length_append, ← Nat.add_assoc]
    exact ⟨a, _, hr.ok hcs pos, (hf hcs).ok hcs' _⟩
  error e he pos := by
    rw [StateT.run_bind, List.append_assoc]
    rcases firstFailing_append_iff.mp he with he | ⟨hcs, he⟩
    · rw [hr.error e he pos]
      rfl
    · rw [hr.ok hcs pos]
      exact (hf hcs).error e he _

theorem ofFormat {ok : α → Prop} {enc : α → List UInt8} (hr : Format r ok enc) (ha : ok a)
    (hf : Reports (f a) v tail cs b) : Reports (r >>= f) (enc a ++ v) tail cs b :=
  (hr.reports ha _).bind fun _ => hf

theorem failIf {p : Prop} [Decidable p] {e : ε} {f : Unit → Reader ε β}
    (hf : ¬ p → Reports (f ()) w tail cs b) :
    Reports (ByteFormat.failIf p e >>= f) w tail (⟨¬ p, e⟩ :: cs) b where
  ok hpass pos := by
    obtain ⟨hp, hpass⟩ := passes_cons.mp hpass
    rw [run_failIf_bind_of_not hp]
    exact (hf hp).ok hpass pos
  error e' he pos := by
    rcases firstFailing_cons_iff.mp he with ⟨hp, rfl⟩ | ⟨hp, he⟩
    · rw [ByteFormat.failIf, if_pos (not_not.mp hp)]
      rfl
    · rw [run_failIf_bind_of_not hp]
      exact (hf hp).error e' he pos

theorem map (hr : Reports r w tail cs a) (g : α → β) :
    Reports (r >>= fun a => pure (g a)) w tail cs (g a) where
  ok hpass pos := run_bind_eq_ok.mpr ⟨a, _, hr.ok hpass pos, rfl⟩
  error e he pos := by
    rw [StateT.run_bind, hr.error e he pos]
    rfl

theorem congr (hr : Reports r w tail cs a) (h : ∀ e, FirstFailing cs e ↔ FirstFailing cs' e) :
    Reports r w tail cs' a where
  ok hpass := hr.ok (passes_iff.mpr fun e he => passes_iff.mp hpass e ((h e).mp he))
  error e he := hr.error e ((h e).mpr he)

/-- A loop whose body at the header of a value reads that value. -/
theorem mapM {γ : Type} {f : γ → Reader ε α} {header : α → γ} {enc : α → List UInt8}
    {cs : α → List (Condition ε)} (as : List α)
    (h : ∀ a ∈ as, ∀ tail, Reports (f (header a)) (enc a) tail (cs a) a) (tail : List UInt8) :
    Reports ((as.map header).mapM f) (as.flatMap enc) tail (as.flatMap cs) as := by
  induction as with
  | nil =>
    rw [List.map_nil, List.mapM_nil]
    exact (Parses.pure []).reports ⟨rfl, rfl⟩ tail
  | cons a as ih =>
    obtain ⟨ha, has⟩ := List.forall_mem_cons.mp h
    rw [List.map_cons, List.mapM_cons, List.flatMap_cons, List.flatMap_cons]
    exact (ha _).bind fun _ => (ih has).map (a :: ·)

theorem runReader (hr : Reports r w tail cs a) :
    (Passes cs → ByteFormat.runReader r (w ++ tail) = .ok a) ∧
      ∀ e, ByteFormat.runReader r (w ++ tail) = .error e ↔ FirstFailing cs e := by
  have hok (hpass : Passes cs) : ByteFormat.runReader r (w ++ tail) = .ok a := by
    rw [ByteFormat.runReader, Cursor.new, hr.ok hpass]
    rfl
  refine ⟨hok, fun e => ⟨fun he => ?_, fun he => ?_⟩⟩
  · by_contra hnot
    have hpass : Passes cs := passes_iff.mpr fun e' he' => by
      have herror : ByteFormat.runReader r (w ++ tail) = .error e' := by
        rw [ByteFormat.runReader, Cursor.new, hr.error e' he']
        rfl
      exact hnot (Except.error.inj (he.symm.trans herror) ▸ he')
    rw [hok hpass] at he
    cases he
  · rw [ByteFormat.runReader, Cursor.new, hr.error e he]
    rfl

end Reports

end ByteFormat
