import TypedCss.Scope

/-!
# Environments

An `Env` says of each name what it stands for, if it is known. It is a map that is never changed:
`set` gives another one, in which a name stands for something else. There are no frames in it, so
whoever is given an environment can keep it while others go on with one of their own.

One environment is `Within` another if it knows less: whatever it says of a name, the other says
too. `All` says of an environment what holds of everything that a name stands for.

Seen from the names, a scope is the environment `Scope.lookup`. Opening a frame does not change it,
and binding a name sets the name, whichever frame is open.
-/

namespace TypedCss

/-- What each name stands for, if it is known. -/
abbrev Env (α : Type) := String → Option α

namespace Env

variable {α : Type}

/-- Nothing is known. -/
def empty : Env α := fun _ ↦ none

/-- The environment in which a name stands for `value`, and all others for what they did. -/
def set (env : Env α) (name : String) (value : α) : Env α :=
  fun other ↦ if other = name then some value else env other

/-- What the one environment says of a name, the other says too. -/
def Within (env env' : Env α) : Prop := ∀ name value, env name = some value → env' name = some value

theorem empty_within (env : Env α) : (empty : Env α).Within env := by
  rintro name value ⟨⟩

/-- Two names can be set in either order. -/
theorem set_set_comm (env : Env α) {name other : String} (h : name ≠ other) (a b : α) :
    (env.set name a).set other b = (env.set other b).set name a := by
  funext key
  simp only [Env.set]
  by_cases hk : key = other
  · have hname : key ≠ name := fun hn ↦ h (hn.symm.trans hk)
    rw [if_pos hk, if_neg hname, if_pos hk]
  · rw [if_neg hk, if_neg hk]

/-- Setting a name in both environments makes no difference to what only one of them knows. -/
theorem Within.set {env env' : Env α} (h : env.Within env') (name : String) (value : α) :
    (env.set name value).Within (env'.set name value) := by
  intro other v hv
  rw [Env.set] at hv ⊢
  split at hv
  · rename_i ho
    rwa [if_pos ho]
  · rename_i ho
    rw [if_neg ho]
    exact h other v hv

/-- What a name stands for satisfies `p`. -/
def All (p : α → Prop) (env : Env α) : Prop := ∀ name value, env name = some value → p value

theorem All.empty {p : α → Prop} : (Env.empty : Env α).All p := by
  rintro name value ⟨⟩

theorem All.set {p : α → Prop} {env : Env α} (h : env.All p) (name : String) {value : α}
    (hv : p value) : (env.set name value).All p := by
  intro other v ho
  rw [Env.set] at ho
  split at ho
  · cases ho
    exact hv
  · exact h other v ho

end Env

namespace Scope

variable {α : Type}

theorem lookup_empty_eq : (empty : Scope α).lookup = Env.empty := rfl

theorem lookup_push_eq (s : Scope α) : s.push.lookup = s.lookup :=
  funext s.lookup_push

theorem lookup_bind_eq (s : Scope α) (name : String) (value : α) :
    (s.bind name value).lookup = Env.set s.lookup name value :=
  funext fun other ↦ s.lookup_bind name other value

end Scope

end TypedCss
