/-!
# Scopes

A `Scope` binds names to values in frames: one outermost frame that is always there, and the
frames that were opened inside it. A name is looked up from the innermost frame outwards, and bound
in the innermost one, where it takes the place of an earlier binding of the name in that frame.
-/

namespace TypedCss

/-! ### Frames -/

/-- The bindings of one frame, each name once. -/
abbrev Frame (α : Type) := List (String × α)

namespace Frame

variable {α : Type}

/-- The value of a name. -/
def get? : Frame α → String → Option α
  | [], _ => none
  | (key, value) :: f, name => if key = name then some value else get? f name

/-- Binds a name. -/
def insert (f : Frame α) (name : String) (value : α) : Frame α :=
  (name, value) :: f.filter fun b ↦ b.1 != name

@[simp] theorem get?_nil (name : String) : get? ([] : Frame α) name = none := rfl

theorem get?_cons (key : String) (value : α) (f : Frame α) (name : String) :
    get? ((key, value) :: f) name = if key = name then some value else get? f name := rfl

/-- Taking out one name leaves all others. -/
theorem get?_filter_ne (f : Frame α) {name other : String} (h : other ≠ name) :
    get? (f.filter fun b ↦ b.1 != name) other = get? f other := by
  induction f with
  | nil => rfl
  | cons b f ih =>
    obtain ⟨key, value⟩ := b
    by_cases hk : key = name
    · have ho : key ≠ other := fun he ↦ h (he.symm.trans hk)
      rw [List.filter_cons_of_neg (by simp [hk]), ih, get?_cons, if_neg ho]
    · rw [List.filter_cons_of_pos (by simp [hk]), get?_cons, get?_cons, ih]

/-- A name has the value that it was bound to last, and other names keep theirs. -/
theorem get?_insert (f : Frame α) (name other : String) (value : α) :
    get? (insert f name value) other = if other = name then some value else get? f other := by
  by_cases h : other = name
  · rw [insert, get?_cons, if_pos h.symm, if_pos h]
  · rw [insert, get?_cons, if_neg fun he ↦ h he.symm, if_neg h, get?_filter_ne f h]

end Frame

/-! ### Scopes -/

/-- The outermost frame and those opened inside it, the innermost first. -/
structure Scope (α : Type) where
  /-- The frames that can be closed, the innermost first. -/
  opened : List (Frame α)
  /-- The outermost frame. -/
  root : Frame α

namespace Scope

variable {α : Type}

/-- A scope in which nothing is bound. -/
def empty : Scope α := ⟨[], []⟩

instance : Inhabited (Scope α) := ⟨empty⟩

/-- All frames, the innermost first. -/
def frames (s : Scope α) : List (Frame α) := s.opened ++ [s.root]

/-- The number of frames. -/
def depth (s : Scope α) : Nat := s.frames.length

/-- Opens a frame. -/
def push (s : Scope α) : Scope α := { s with opened := [] :: s.opened }

/-- Closes the innermost frame and gives its bindings. The outermost frame cannot be closed. -/
def pop? (s : Scope α) : Option (Frame α × Scope α) :=
  match s.opened with
  | [] => none
  | f :: fs => some (f, { s with opened := fs })

/-- Closes the innermost frame, if it can be closed. -/
def pop (s : Scope α) : Scope α := { s with opened := s.opened.tail }

/-- The value of a name, from the innermost frame that binds it. -/
def lookup (s : Scope α) (name : String) : Option α := s.frames.findSome? (·.get? name)

/-- Binds a name in the innermost frame. -/
def bind (s : Scope α) (name : String) (value : α) : Scope α :=
  match s.opened with
  | [] => { s with root := s.root.insert name value }
  | f :: fs => { s with opened := f.insert name value :: fs }

/-- Runs `f` in a frame of its own, which is closed whatever `f` gives. -/
def inFrame {β : Type} (s : Scope α) (f : Scope α → β × Scope α) : β × Scope α :=
  let (result, inner) := f s.push
  (result, inner.pop)

/-! ### What each operation does -/

@[simp] theorem depth_push (s : Scope α) : s.push.depth = s.depth + 1 := rfl

@[simp] theorem pop_push (s : Scope α) : s.push.pop = s := rfl

@[simp] theorem depth_bind (s : Scope α) (name : String) (value : α) :
    (s.bind name value).depth = s.depth := by
  unfold bind
  split <;> simp [depth, frames, *]

@[simp] theorem lookup_empty (name : String) : (empty : Scope α).lookup name = none := rfl

@[simp] theorem lookup_push (s : Scope α) (name : String) : s.push.lookup name = s.lookup name := by
  simp [lookup, frames, push, List.findSome?_cons]

/-- A name has the value that it was bound to last, and other names keep theirs. -/
theorem lookup_bind (s : Scope α) (name other : String) (value : α) :
    (s.bind name value).lookup other = if other = name then some value else s.lookup other := by
  unfold bind
  split <;> by_cases other = name <;>
    simp [lookup, frames, List.findSome?_cons, Frame.get?_insert, *]

/-- What is bound in an opened frame is gone when it is closed. -/
@[simp] theorem pop_bind_push (s : Scope α) (name : String) (value : α) :
    (s.push.bind name value).pop = s := rfl

/-- Closing a frame gives what it held and leaves what `pop` leaves; only the outermost frame, at
depth one, is refused. -/
theorem pop?_eq_none_iff (s : Scope α) : s.pop? = none ↔ s.depth = 1 := by
  unfold pop?
  split <;> simp [depth, frames, *]

theorem snd_of_pop?_eq_some {s s' : Scope α} {f : Frame α} (h : s.pop? = some (f, s')) :
    s.pop = s' := by
  unfold pop? at h
  split at h
  · cases h
  · obtain ⟨rfl, rfl⟩ := Prod.mk.inj (Option.some.inj h)
    simp [pop, *]

end Scope

end TypedCss
