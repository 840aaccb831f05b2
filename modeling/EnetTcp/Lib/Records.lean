/-!
# Records back to back

A `RecordFormat` writes records as strings that say themselves where they end:
`peel` takes one record off the front of a string and leaves the rest.

* `exists_splits`, `splits_unique`: every string is, in one way only, a run of
  records and a rest that no record starts. `Splits` is that relation.
* `splits_append`: what comes in later is split together with the rest. So the
  records of a stream do not depend on the pieces it comes in.
-/

/-- Records of type `ρ` written as strings over `α`. -/
structure RecordFormat (α ρ : Type) where
  encode : ρ → List α
  /-- The record at the front and what follows it, when a complete one is there. -/
  peel : List α → Option (ρ × List α)
  peel_encode : ∀ r xs, peel (encode r ++ xs) = some (r, xs)
  eq_of_peel : ∀ {xs r ys}, peel xs = some (r, ys) → xs = encode r ++ ys
  encode_ne_nil : ∀ r, encode r ≠ []

namespace RecordFormat

variable {α ρ : Type} (F : RecordFormat α ρ)

/-- The records one after the other. -/
def encodeAll (rs : List ρ) : List α := rs.flatMap F.encode

/-- `xs` is the run of records `rs` followed by `rest`, which no record starts. -/
structure Splits (xs : List α) (rs : List ρ) (rest : List α) : Prop where
  eq : xs = F.encodeAll rs ++ rest
  stop : F.peel rest = none

/-! ## 1. One record -/

theorem encode_append_inj {r s : ρ} {xs ys : List α} (h : F.encode r ++ xs = F.encode s ++ ys) :
    r = s ∧ xs = ys := by
  have hr : F.peel (F.encode s ++ ys) = some (r, xs) := by rw [← h, F.peel_encode]
  rw [F.peel_encode] at hr
  simp only [Option.some.injEq, Prod.mk.injEq] at hr
  exact ⟨hr.1.symm, hr.2.symm⟩

theorem length_encode_pos (r : ρ) : 0 < (F.encode r).length :=
  List.length_pos_iff.mpr (F.encode_ne_nil r)

/-! ## 2. Runs of records -/

@[simp] theorem encodeAll_nil : F.encodeAll [] = [] := rfl

@[simp] theorem encodeAll_cons (r : ρ) (rs : List ρ) :
    F.encodeAll (r :: rs) = F.encode r ++ F.encodeAll rs := rfl

@[simp] theorem encodeAll_append (rs ss : List ρ) :
    F.encodeAll (rs ++ ss) = F.encodeAll rs ++ F.encodeAll ss :=
  List.flatMap_append

theorem length_le_length_encodeAll (rs : List ρ) : rs.length ≤ (F.encodeAll rs).length := by
  induction rs with
  | nil => exact Nat.le_refl 0
  | cons r rs ih =>
    have hpos := F.length_encode_pos r
    rw [encodeAll_cons, List.length_append, List.length_cons]
    omega

theorem splits_of_stop {xs : List α} (h : F.peel xs = none) : F.Splits xs [] xs := ⟨rfl, h⟩

/-- Taking records off the front comes to an end: `P` holds of every string when
it holds where no record starts, and of a record in front of a string with `P`. -/
theorem peel_induction {P : List α → Prop} (hstop : ∀ xs, F.peel xs = none → P xs)
    (hrecord : ∀ r xs, P xs → P (F.encode r ++ xs)) (xs : List α) : P xs := by
  induction hn : xs.length using Nat.strongRecOn generalizing xs with
  | _ n ih =>
    cases hp : F.peel xs with
    | none => exact hstop xs hp
    | some p =>
      obtain ⟨r, ys⟩ := p
      have hxs := F.eq_of_peel hp
      have hpos := F.length_encode_pos r
      have hlt : ys.length < n := by
        rw [← hn, hxs, List.length_append]
        omega
      rw [hxs]
      exact hrecord r ys (ih ys.length hlt ys rfl)

theorem exists_splits (xs : List α) : ∃ rs rest, F.Splits xs rs rest := by
  induction xs using F.peel_induction with
  | hstop xs h => exact ⟨[], xs, F.splits_of_stop h⟩
  | hrecord r xs ih =>
    obtain ⟨rs, rest, hxs, hstop⟩ := ih
    exact ⟨r :: rs, rest, by rw [encodeAll_cons, List.append_assoc, ← hxs], hstop⟩

/-- The run that ends where no record starts is the longest one. -/
theorem prefix_of_splits {rs ss : List ρ} {rest ys : List α} (hstop : F.peel rest = none)
    (h : F.encodeAll ss ++ ys = F.encodeAll rs ++ rest) :
    ∃ more, rs = ss ++ more ∧ ys = F.encodeAll more ++ rest := by
  induction ss generalizing rs with
  | nil => exact ⟨rs, rfl, h⟩
  | cons s ss ih =>
    cases rs with
    | nil =>
      have hpeel : F.peel rest = some (s, F.encodeAll ss ++ ys) := by
        rw [← F.peel_encode, ← List.append_assoc]
        exact congrArg F.peel h.symm
      rw [hstop] at hpeel
      cases hpeel
    | cons r rs =>
      rw [encodeAll_cons, encodeAll_cons, List.append_assoc, List.append_assoc] at h
      obtain ⟨rfl, htail⟩ := F.encode_append_inj h
      obtain ⟨more, rfl, hys⟩ := ih htail
      exact ⟨more, rfl, hys⟩

/-- A record that lies within a run of records is one of them. -/
theorem mem_of_encodeAll_eq {rs ss : List ρ} {r : ρ} {xs ys : List α}
    (h : F.encodeAll ss ++ xs = F.encodeAll rs ++ (F.encode r ++ ys))
    (hlen : (F.encodeAll rs).length + (F.encode r).length ≤ (F.encodeAll ss).length) : r ∈ ss := by
  induction rs generalizing ss with
  | nil =>
    cases ss with
    | nil => exact absurd hlen (Nat.not_le_of_lt (Nat.lt_add_left _ (F.length_encode_pos r)))
    | cons s ss =>
      rw [encodeAll_cons, List.append_assoc] at h
      obtain ⟨rfl, -⟩ := F.encode_append_inj h
      exact List.mem_cons_self
  | cons r' rs ih =>
    cases ss with
    | nil => exact absurd hlen (Nat.not_le_of_lt (Nat.lt_add_left _ (F.length_encode_pos r)))
    | cons s ss =>
      rw [encodeAll_cons, encodeAll_cons, List.append_assoc, List.append_assoc] at h
      obtain ⟨rfl, htail⟩ := F.encode_append_inj h
      rw [encodeAll_cons, encodeAll_cons, List.length_append, List.length_append,
        Nat.add_assoc] at hlen
      exact List.mem_cons_of_mem _ (ih htail (Nat.le_of_add_le_add_left hlen))

theorem splits_unique {xs rest rest' : List α} {rs rs' : List ρ} (h : F.Splits xs rs rest)
    (h' : F.Splits xs rs' rest') : rs = rs' ∧ rest = rest' := by
  obtain ⟨more, hrs, hrest⟩ := F.prefix_of_splits h'.stop (h.eq.symm.trans h'.eq)
  cases more with
  | nil => exact ⟨by rw [hrs, List.append_nil], hrest⟩
  | cons r more =>
    have hpeel := h.stop
    rw [hrest, encodeAll_cons, List.append_assoc, F.peel_encode] at hpeel
    cases hpeel

/-- A later piece of the stream is split together with the rest of the earlier one. -/
theorem splits_append {xs rest ys rest' : List α} {rs rs' : List ρ} (h : F.Splits xs rs rest)
    (h' : F.Splits (rest ++ ys) rs' rest') : F.Splits (xs ++ ys) (rs ++ rs') rest' := by
  refine ⟨?_, h'.stop⟩
  rw [h.eq, List.append_assoc, h'.eq, encodeAll_append, List.append_assoc]

end RecordFormat
