import Mathlib.Data.List.Basic

/-!
# Rows

Whatever has a start and a stop can stand in a row: one after the other, none of them empty. Tokens
do so in their text, and the parts of a tree in the text that the tree was read from. `InRow` says
it of a list between two bounds, and of a property that all members have.

A row is put together from shorter ones by `InRow.append` and taken apart by `InRow.exists_mid`;
what it says of its members is `InRow.forall_mem` and `InRow.pairwise`.
-/

namespace TypedCss

variable {α : Type}

/-- `InRow start stop P lo xs hi` says that `xs` stand one after the other between `lo` and `hi`,
and that each of them is not empty and has the property `P`. -/
inductive InRow (start stop : α → Nat) (P : α → Prop) : Nat → List α → Nat → Prop where
  /-- Nothing. -/
  | nil {lo hi : Nat} (h : lo ≤ hi) : InRow start stop P lo [] hi
  /-- One, and those that start where it stops or later. -/
  | cons {lo hi : Nat} {x : α} {xs : List α} (hlo : lo ≤ start x) (hne : start x < stop x)
    (hx : P x) (next : InRow start stop P (stop x) xs hi) : InRow start stop P lo (x :: xs) hi

namespace InRow

variable {start stop : α → Nat} {P : α → Prop} {lo mid hi : Nat} {x : α} {xs ys : List α}

theorem le (h : InRow start stop P lo xs hi) : lo ≤ hi := by
  induction h with
  | nil h => exact h
  | cons hlo hne _ _ ih => omega

/-- A row stands between wider bounds too. -/
theorem mono {lo' hi' : Nat} (h : InRow start stop P lo xs hi) (hlo : lo' ≤ lo) (hhi : hi ≤ hi') :
    InRow start stop P lo' xs hi' := by
  induction h generalizing lo' with
  | nil h => exact .nil (by omega)
  | cons hle hne hx _ ih => exact .cons (by omega) hne hx (ih (Nat.le_refl _) hhi)

theorem append (h : InRow start stop P lo xs mid) (k : InRow start stop P mid ys hi) :
    InRow start stop P lo (xs ++ ys) hi := by
  induction h with
  | nil h => exact k.mono h (Nat.le_refl _)
  | cons hlo hne hx _ ih => exact .cons hlo hne hx (ih k)

/-- A row of two lists is a row of the first and a row of the second. -/
theorem exists_mid (h : InRow start stop P lo (xs ++ ys) hi) :
    ∃ mid, InRow start stop P lo xs mid ∧ InRow start stop P mid ys hi := by
  induction xs generalizing lo with
  | nil => exact ⟨lo, .nil (Nat.le_refl _), h⟩
  | cons x xs ih =>
    cases h with
    | cons hlo hne hx next =>
      obtain ⟨mid, hxs, hys⟩ := ih next
      exact ⟨mid, .cons hlo hne hx hxs, hys⟩

theorem exists_mid_cons (h : InRow start stop P lo (x :: xs) hi) :
    ∃ mid, InRow start stop P lo [x] mid ∧ InRow start stop P mid xs hi := by
  cases h with
  | cons hlo hne hx next => exact ⟨stop x, .cons hlo hne hx (.nil (Nat.le_refl _)), next⟩

theorem singleton_iff : InRow start stop P lo [x] hi ↔
    lo ≤ start x ∧ start x < stop x ∧ stop x ≤ hi ∧ P x := by
  constructor
  · rintro (_ | ⟨hlo, hne, hx, ⟨hhi⟩⟩)
    exact ⟨hlo, hne, hhi, hx⟩
  · rintro ⟨hlo, hne, hhi, hx⟩
    exact .cons hlo hne hx (.nil hhi)

/-- The members of a row stand between its bounds. -/
theorem forall_mem (h : InRow start stop P lo xs hi) :
    ∀ x ∈ xs, lo ≤ start x ∧ start x < stop x ∧ stop x ≤ hi ∧ P x := by
  induction h with
  | nil => exact List.forall_mem_nil _
  | cons hlo hne hx next ih =>
    have hle := next.le
    refine List.forall_mem_cons.2 ⟨⟨hlo, hne, hle, hx⟩, fun y hy ↦ ?_⟩
    obtain ⟨hy, hyne, hyhi, hPy⟩ := ih y hy
    exact ⟨by omega, hyne, hyhi, hPy⟩

/-- The members of a row do not overlap. -/
theorem pairwise (h : InRow start stop P lo xs hi) : xs.Pairwise fun x y ↦ stop x ≤ start y := by
  induction h with
  | nil => exact .nil
  | cons hlo hne hx next ih => exact .cons (fun y hy ↦ (next.forall_mem y hy).1) ih

/-- What does not overlap is a row. -/
theorem of_pairwise (hle : lo ≤ hi)
    (h : ∀ x ∈ xs, lo ≤ start x ∧ start x < stop x ∧ stop x ≤ hi ∧ P x)
    (hxs : xs.Pairwise fun x y ↦ stop x ≤ start y) : InRow start stop P lo xs hi := by
  induction xs generalizing lo with
  | nil => exact .nil hle
  | cons x xs ih =>
    obtain ⟨⟨hlo, hne, hhi, hx⟩, hrest⟩ := List.forall_mem_cons.1 h
    obtain ⟨hafter, hxs⟩ := List.pairwise_cons.1 hxs
    exact .cons hlo hne hx (ih hhi (fun y hy ↦ ⟨hafter y hy, (hrest y hy).2⟩) hxs)

end InRow

end TypedCss
