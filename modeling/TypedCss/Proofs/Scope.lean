import TypedCss.Scope

/-!
# The innermost frame and those around it

A pass over a body binds names in the innermost frame only. `outer` is what it cannot touch, and
what decides the scope after the frame is closed: two scopes with the same outer frames are the same
once their innermost frames are gone (`pop_eq_of_outer_eq`).

`Rebinds` says which names of the innermost frame may be bound to something else, all else being as
it was.
-/

namespace TypedCss

/-- In a frame that binds each name once, a name has the value that it is bound to. -/
theorem Frame.get?_eq_some_iff {α : Type} {f : Frame α} (h : (f.map Prod.fst).Nodup)
    {name : String} {value : α} : f.get? name = some value ↔ (name, value) ∈ f := by
  induction f with
  | nil => exact iff_of_false nofun nofun
  | cons b f ih =>
    obtain ⟨key, v⟩ := b
    obtain ⟨hkey, hf⟩ := List.nodup_cons.1 h
    rw [get?_cons, List.mem_cons, Prod.mk.injEq]
    by_cases hk : key = name
    · subst hk
      have hnone : (key, value) ∉ f := fun hm ↦ hkey (List.mem_map.2 ⟨_, hm, rfl⟩)
      simp [hnone, eq_comm]
    · simp [hk, Ne.symm hk, ih hf]

namespace Scope

variable {α β : Type}

/-- The frames around the innermost one. -/
def outer (s : Scope α) : List (Frame α) := s.frames.tail

@[simp] theorem outer_push (s : Scope α) : s.push.outer = s.frames := rfl

/-- A binding is made in the innermost frame. -/
@[simp] theorem outer_bind (s : Scope α) (name : String) (value : α) :
    (s.bind name value).outer = s.outer := by
  rw [bind]
  split <;> simp [outer, frames, *]

/-- Closing the innermost frame of a scope that was opened from `s` gives `s` back, if only that
frame was changed. -/
theorem pop_eq_of_outer_eq {s inner : Scope α} (h : inner.outer = s.push.outer) :
    inner.pop = s := by
  obtain ⟨opened, root⟩ := inner
  obtain ⟨around, base⟩ := s
  rw [outer_push] at h
  cases opened with
  | nil => simp [outer, frames] at h
  | cons f fs =>
    have hframes : fs ++ [root] = around ++ [base] := h
    obtain ⟨rfl, hr⟩ := List.append_inj' hframes rfl
    obtain rfl : root = base := (List.cons.inj hr).1
    rfl

/-- A pass that keeps to the innermost frame leaves no trace outside a frame of its own. -/
theorem snd_inFrame {s : Scope α} {f : Scope α → β × Scope α} (h : (f s.push).2.outer = s.frames) :
    (s.inFrame f).2 = s :=
  pop_eq_of_outer_eq h

@[simp] theorem fst_inFrame (s : Scope α) (f : Scope α → β × Scope α) :
    (s.inFrame f).1 = (f s.push).1 := rfl

/-! ### Rebinding names -/

/-- The innermost frame. -/
def innermost (s : Scope α) : Frame α := s.opened.headD s.root

/-- A scope has an innermost frame. -/
theorem frames_eq_cons (s : Scope α) : s.frames = s.innermost :: s.outer := by
  obtain ⟨opened, root⟩ := s
  cases opened <;> rfl

theorem frames_bind (s : Scope α) (name : String) (value : α) :
    (s.bind name value).frames = s.innermost.insert name value :: s.outer := by
  obtain ⟨opened, root⟩ := s
  cases opened <;> rfl

/-- The outermost frame stays when it is to be closed. -/
theorem pop_of_frames_eq {s : Scope α} {f : Frame α} (h : s.frames = [f]) : s.pop = s := by
  obtain ⟨_ | ⟨f, fs⟩, root⟩ := s
  · rfl
  · simp [frames] at h

/-- The innermost frame is closed if there is another one. -/
theorem frames_pop {s : Scope α} {f g : Frame α} {fs : List (Frame α)}
    (h : s.frames = f :: g :: fs) : s.pop.frames = g :: fs := by
  obtain ⟨_ | ⟨f, fs⟩, root⟩ := s
  · cases h
  · exact (List.cons.inj h).2

/-- Binding a name leaves the other names of the innermost frame. -/
theorem get?_innermost_bind (s : Scope α) {name other : String} (value : α) (h : other ≠ name) :
    (s.bind name value).innermost.get? other = s.innermost.get? other := by
  rw [bind]
  split <;> simp [innermost, Frame.get?_insert, *]

/-- `s.Rebinds names s'` says that `s'` is `s` apart from what some names are bound to in the
innermost frame. -/
structure Rebinds (s : Scope α) (names : List String) (s' : Scope α) : Prop where
  /-- No frame was opened or closed for good. -/
  depth : s'.depth = s.depth
  /-- The frames around the innermost one are as they were. -/
  outer : s'.outer = s.outer
  /-- In the innermost frame, all other names are bound to what they were. -/
  innermost : ∀ name ∉ names, s'.innermost.get? name = s.innermost.get? name

namespace Rebinds

variable {s s' s'' : Scope α} {names : List String}

theorem refl (s : Scope α) (names : List String) : s.Rebinds names s :=
  ⟨rfl, rfl, fun _ _ ↦ rfl⟩

/-- One part of a pass after another. -/
theorem trans (h : s.Rebinds names s') (h' : s'.Rebinds names s'') : s.Rebinds names s'' where
  depth := h'.depth.trans h.depth
  outer := h'.outer.trans h.outer
  innermost name hn := (h'.innermost name hn).trans (h.innermost name hn)

/-- A binding of one of the names. -/
theorem bind (s : Scope α) {name : String} (value : α) (h : name ∈ names) :
    s.Rebinds names (s.bind name value) where
  depth := s.depth_bind name value
  outer := s.outer_bind name value
  innermost other ho := by
    refine s.get?_innermost_bind value ?_
    rintro rfl
    exact ho h

end Rebinds

end Scope

end TypedCss
