import Mathlib.Data.List.Infix
import TypedCss.Proofs.Scope

/-!
# Scopes and their history

What a scope gives is said here of what was done to it, without a word about frames. A `History`
lists the operations, the latest first. A frame is known by what was done since it was opened: a
push with `inside` after it is still open if `inside` never closed more frames than it opened
(`History.Stays`), and it is the innermost one if all that was opened in `inside` was closed again
(`History.Settled`). The outermost frame was always there, so that all has been done since it was
opened. A binding is one of a frame if it was made while the frame was the innermost one
(`History.BoundIn`).

The relation `History.Tracks` between a history and the frames of the scope after it is kept by each
operation (`History.tracks_after`). What is said of a pop and of a look-up comes out of it
(`History.Tracks.settled_iff`, `History.Tracks.lookup_spec`).
-/

namespace TypedCss

namespace Scope

variable {α : Type}

/-! ### Histories -/

/-- An operation on a scope. -/
inductive Event (α : Type) where
  /-- A frame is opened. -/
  | push
  /-- The innermost frame is closed, if it can be closed. -/
  | pop
  /-- A name is bound. -/
  | bind (name : String) (value : α)
  /-- A name is looked up. -/
  | lookup (name : String)

/-- The scope after an operation. -/
def step (s : Scope α) : Event α → Scope α
  | .push => s.push
  | .pop => s.pop
  | .bind name value => s.bind name value
  | .lookup _ => s

/-- By how much an operation that can be carried out changes the number of frames. -/
def Event.change : Event α → Int
  | .push => 1
  | .pop => -1
  | .bind _ _ | .lookup _ => 0

/-- What was done to a scope, the latest first. -/
abbrev History (α : Type) := List (Event α)

namespace History

/-- What a scope has become. -/
def onto (s : Scope α) (h : History α) : Scope α := h.foldr (fun e s ↦ s.step e) s

/-- The scope that has a history. -/
def after (h : History α) : Scope α := h.onto empty

theorem after_append (later h : History α) : after (later ++ h) = later.onto (after h) :=
  List.foldr_append

/-- How many frames more were opened than closed. -/
def height : History α → Int
  | [] => 0
  | e :: h => e.change + height h

/-- At no time were more frames closed than opened. -/
def Stays (h : History α) : Prop := ∀ earlier, earlier <:+ h → 0 ≤ height earlier

/-- All frames that were opened were closed again. -/
def Settled (h : History α) : Prop :=
  ∀ inside before, h = inside ++ .push :: before → ¬ Stays inside

/-- `h.Open inside` says that a frame is open since `inside` began: the outermost one, or one that
was opened then and stays. -/
def Open (h inside : History α) : Prop :=
  inside = h ∨ ∃ before, h = inside ++ .push :: before ∧ Stays inside

/-- `h.BoundIn name v later` says that a name was bound in the frame that was the innermost one when
`h` began, and that `later` happened after that. -/
def BoundIn (h : History α) (name : String) (v : α) (later : History α) : Prop :=
  ∃ earlier, h = later ++ .bind name v :: earlier ∧ Settled earlier

/-- The last value that a name was bound to in the frame that was the innermost one when `h`
began. -/
def LastBound (h : History α) (name : String) (v : α) : Prop :=
  ∃ later, h.BoundIn name v later ∧
    ∀ w later', h.BoundIn name w later' → later.length ≤ later'.length

/-- `h.Holds frame` says that the bindings of a frame are those made in it since `h` began, each
name with its last value. -/
structure Holds (h : History α) (frame : Frame α) : Prop where
  /-- No name is bound twice. -/
  nodup : (frame.map Prod.fst).Nodup
  /-- What is bound is what was bound last. -/
  mem_iff : ∀ name v, (name, v) ∈ frame ↔ h.LastBound name v

/-- `h.Finds name v` says that `v` is the last value of a name in the innermost of the open frames
that bind it. -/
def Finds (h : History α) (name : String) (v : α) : Prop :=
  ∃ inside, h.Open inside ∧ inside.LastBound name v ∧
    ∀ inner, h.Open inner → inner.length < inside.length → ∀ w, ¬ inner.LastBound name w

/-! ### Frames that are opened and closed -/

section

variable {h inside before : History α} {e : Event α}

theorem height_append (xs ys : History α) : height (xs ++ ys) = height xs + height ys := by
  induction xs with
  | nil => exact (Int.zero_add _).symm
  | cons e xs ih => exact (congrArg (e.change + ·) ih).trans (Int.add_assoc ..).symm

theorem stays_nil : Stays ([] : History α) := by
  intro earlier hs
  rw [List.suffix_nil.1 hs]
  exact Int.le_refl 0

theorem stays_cons_iff : Stays (e :: h) ↔ 0 ≤ e.change + height h ∧ Stays h := by
  constructor
  · exact fun hs ↦ ⟨hs _ List.suffix_rfl, fun q hq ↦ hs q (hq.trans (List.suffix_cons e h))⟩
  · rintro ⟨he, hs⟩ q hq
    rcases List.suffix_cons_iff.1 hq with rfl | hq
    · exact he
    · exact hs q hq

theorem Stays.height_nonneg (hs : Stays h) : 0 ≤ height h := hs h List.suffix_rfl

theorem Stays.of_append {later : History α} (hs : Stays (later ++ h)) : Stays h :=
  fun q hq ↦ hs q (hq.trans (List.suffix_append later h))

theorem Stays.tail (hs : Stays h) : Stays h.tail := by
  cases h with
  | nil => exact stays_nil
  | cons e h => exact (stays_cons_iff.1 hs).2

/-- An operation that closes nothing leaves what is open. -/
theorem Stays.cons (hs : Stays h) (he : 0 ≤ e.change) : Stays (e :: h) :=
  stays_cons_iff.2 ⟨Int.add_nonneg he hs.height_nonneg, hs⟩

/-- What stays open after what stays open. -/
theorem Stays.append {xs : History α} (hx : Stays xs) (hs : Stays h) : Stays (xs ++ h) := by
  induction xs with
  | nil => exact hs
  | cons e xs ih =>
    obtain ⟨he, hxs⟩ := stays_cons_iff.1 hx
    have hheight : 0 ≤ e.change + (height xs + height h) := by
      rw [← Int.add_assoc]
      exact Int.add_nonneg he hs.height_nonneg
    exact stays_cons_iff.2 ⟨height_append xs h ▸ hheight, ih hxs⟩

theorem settled_nil : Settled ([] : History α) := by
  rintro inside before h
  simp at h

/-- A frame is open after a push that was not undone. -/
theorem not_settled_append_push (hs : Stays inside) : ¬ Settled (inside ++ .push :: before) :=
  fun h ↦ h inside before rfl hs

/-- All is closed after an operation that opens nothing, if it was closed before. -/
theorem Settled.cons (hs : Settled h) (he : e ≠ .push) : Settled (e :: h) := by
  intro inside before heq hstays
  cases inside with
  | nil => exact he (List.cons.inj heq).1
  | cons e' inside => exact hs inside before (List.cons.inj heq).2 (stays_cons_iff.1 hstays).2

/-- Whoever opened more frames than he closed has left one open. -/
theorem exists_push_of_height {h : History α} {n : Int} (hn : 0 < n) (hle : n ≤ height h) :
    ∃ inside before, h = inside ++ .push :: before ∧ Stays inside ∧ height before = n - 1 := by
  induction h with
  | nil => exact absurd (Int.lt_of_lt_of_le hn hle) (Int.lt_irrefl 0)
  | cons e h ih =>
    by_cases hh : n ≤ height h
    · obtain ⟨inside, before, rfl, hs, hb⟩ := ih hh
      refine ⟨e :: inside, before, rfl, stays_cons_iff.2 ⟨?_, hs⟩, hb⟩
      rw [height, height_append, height, hb, Event.change] at hle
      omega
    · -- It was closed before the last operation, which therefore has opened it.
      rw [height] at hle
      cases e with
      | push =>
        refine ⟨[], h, rfl, stays_nil, ?_⟩
        rw [Event.change] at hle
        omega
      | pop | bind | lookup =>
        rw [Event.change] at hle
        omega

/-- As many frames were closed as were opened, if all that were opened were closed and no others. -/
theorem Stays.height_eq_zero (hstays : Stays h) (hs : Settled h) : height h = 0 := by
  refine Int.le_antisymm (Int.not_lt.1 fun hpos ↦ ?_) hstays.height_nonneg
  obtain ⟨inside, before, heq, hi, -⟩ := exists_push_of_height hpos (Int.le_refl _)
  exact hs inside before heq hi

/-- The operations from the opening of a frame to its closing leave all closed that was closed. -/
theorem Settled.block (hb : Settled before) (hstays : Stays inside) (hs : Settled inside) :
    Settled (.pop :: inside ++ .push :: before) := by
  have hclosed : ¬ Stays (.pop :: inside) := by
    rw [stays_cons_iff, hstays.height_eq_zero hs]
    exact fun h ↦ absurd h.1 (show ¬ (0 : Int) ≤ -1 + 0 by decide)
  intro i b heq hi
  rcases List.append_eq_append_iff.1 heq with ⟨c, rfl, hc⟩ | ⟨c, hc, hb'⟩
  · cases c with
    | nil => exact hclosed (List.append_nil (.pop :: inside) ▸ hi)
    | cons e c => exact hb c b (List.cons.inj hc).2 (stays_cons_iff.1 hi.of_append).2
  · cases c with
    | nil => exact hclosed (hc.trans (List.append_nil i) ▸ hi)
    | cons e c =>
      obtain rfl : Event.push = e := (List.cons.inj hb').1
      cases i with
      | nil => cases (List.cons.inj hc).1
      | cons e' i => exact hs i c (List.cons.inj hc).2 (stays_cons_iff.1 hi).2

/-- The operations from the opening of a frame to its closing close no other frame. -/
theorem Stays.block (hb : Stays before) (hstays : Stays inside) :
    Stays (.pop :: inside ++ .push :: before) := by
  refine stays_cons_iff.2 ⟨?_, hstays.append (hb.cons (show (0 : Int) ≤ 1 by decide))⟩
  have hi := hstays.height_nonneg
  have := hb.height_nonneg
  show 0 ≤ -1 + height (inside ++ .push :: before)
  rw [height_append, height, Event.change]
  omega

end

/-! ### Bindings of a frame -/

section

variable {h inside : History α} {e : Event α} {name : String} {v : α}

theorem boundIn_cons_iff {later : History α} : BoundIn (e :: h) name v later ↔
    (later = [] ∧ e = .bind name v ∧ Settled h) ∨
      ∃ later', later = e :: later' ∧ BoundIn h name v later' := by
  constructor
  · rintro ⟨earlier, heq, hs⟩
    cases later with
    | nil =>
      obtain ⟨rfl, rfl⟩ := List.cons.inj heq
      exact .inl ⟨rfl, rfl, hs⟩
    | cons e' later =>
      obtain ⟨rfl, rfl⟩ := List.cons.inj heq
      exact .inr ⟨later, rfl, earlier, rfl, hs⟩
  · rintro (⟨rfl, rfl, hs⟩ | ⟨later, rfl, earlier, rfl, hs⟩)
    · exact ⟨h, rfl, hs⟩
    · exact ⟨earlier, rfl, hs⟩

/-- While a frame is open, nothing is bound in those around it. -/
theorem boundIn_append_push_iff {xs later : History α} (hxs : Stays xs.tail) :
    BoundIn (xs ++ .push :: h) name v later ↔
      ∃ later', later = (xs ++ [.push]) ++ later' ∧ BoundIn h name v later' := by
  induction xs generalizing later with
  | nil =>
    rw [List.nil_append, boundIn_cons_iff]
    simp
  | cons e xs ih =>
    have hopen : ¬ Settled (xs ++ .push :: h) := not_settled_append_push hxs
    rw [List.cons_append, boundIn_cons_iff]
    simp only [hopen, and_false, false_or, ih (Stays.tail hxs)]
    constructor
    · rintro ⟨_, rfl, later', rfl, hb⟩
      exact ⟨later', rfl, hb⟩
    · rintro ⟨later', rfl, hb⟩
      exact ⟨_, rfl, later', rfl, hb⟩

/-- What is bound last stays so after operations that bind the name to nothing else. -/
theorem lastBound_iff_of_boundIn {h h' : History α} (xs : History α)
    (hb : ∀ {w later}, h'.BoundIn name w later ↔
      ∃ later', later = xs ++ later' ∧ h.BoundIn name w later') :
    h'.LastBound name v ↔ h.LastBound name v := by
  constructor
  · rintro ⟨_, hlater, hmin⟩
    obtain ⟨later, rfl, hbound⟩ := hb.1 hlater
    refine ⟨later, hbound, fun w other ho ↦ ?_⟩
    have := hmin w (xs ++ other) (hb.2 ⟨other, rfl, ho⟩)
    simpa using this
  · rintro ⟨later, hbound, hmin⟩
    refine ⟨xs ++ later, hb.2 ⟨later, rfl, hbound⟩, fun w other ho ↦ ?_⟩
    obtain ⟨other, rfl, hother⟩ := hb.1 ho
    simpa using hmin w other hother

/-- While a frame is open, the names in those around it keep their values. -/
theorem lastBound_append_push_iff {xs : History α} (hxs : Stays xs.tail) :
    LastBound (xs ++ .push :: h) name v ↔ LastBound h name v :=
  lastBound_iff_of_boundIn (xs ++ [.push]) fun {_ _} ↦ boundIn_append_push_iff hxs

/-- An operation that does not bind a name leaves it its value. -/
theorem lastBound_cons_iff (he : ∀ w, e ≠ .bind name w) :
    LastBound (e :: h) name v ↔ LastBound h name v := by
  refine lastBound_iff_of_boundIn [e] fun {w later} ↦ ?_
  simp [boundIn_cons_iff, he]

/-- A name that is bound in a frame has this value. -/
theorem lastBound_bind_iff {w : α} (hs : Settled h) :
    LastBound (.bind name v :: h) name w ↔ w = v := by
  have hnow : BoundIn (.bind name v :: h) name v [] := ⟨h, rfl, hs⟩
  constructor
  · rintro ⟨later, hlater, hmin⟩
    have hlen : later.length ≤ 0 := hmin v [] hnow
    obtain rfl := List.length_eq_zero_iff.1 (Nat.le_zero.1 hlen)
    obtain ⟨earlier, heq, -⟩ := hlater
    cases heq
    rfl
  · rintro rfl
    exact ⟨[], hnow, fun _ _ _ ↦ Nat.zero_le _⟩

end

/-! ### Frames hold their bindings -/

section

variable {h inside before : History α} {f : Frame α} {e : Event α}

theorem holds_nil_nil : Holds ([] : History α) [] where
  nodup := List.nodup_nil
  mem_iff name v := by
    refine iff_of_false List.not_mem_nil ?_
    rintro ⟨later, ⟨earlier, heq, -⟩, -⟩
    simp at heq

theorem Holds.of_lastBound_iff {h' : History α} (hf : h.Holds f)
    (hb : ∀ name v, h'.LastBound name v ↔ h.LastBound name v) : h'.Holds f :=
  ⟨hf.nodup, fun name v ↦ (hf.mem_iff name v).trans (hb name v).symm⟩

/-- A frame holds what is bound in it. -/
theorem Holds.insert (hf : h.Holds f) (hs : Settled h) (name : String) (v : α) :
    Holds (.bind name v :: h) (f.insert name v) where
  nodup := by
    rw [Frame.insert, List.map_cons, List.nodup_cons]
    refine ⟨?_, hf.nodup.sublist (List.filter_sublist.map Prod.fst)⟩
    simp
  mem_iff other w := by
    rw [Frame.insert, List.mem_cons, Prod.mk.injEq, List.mem_filter, hf.mem_iff]
    by_cases ho : other = name
    · subst ho
      simp [lastBound_bind_iff hs]
    · have he : ∀ u, Event.bind name v ≠ .bind other u := by
        rintro u ⟨⟩
        exact ho rfl
      simp [lastBound_cons_iff he, ho]

/-- A frame gives a name the value that it holds. -/
theorem Holds.get?_eq_some_iff (hf : h.Holds f) {name : String} {v : α} :
    f.get? name = some v ↔ h.LastBound name v := by
  rw [← hf.mem_iff, Frame.get?_eq_some_iff hf.nodup]

end

/-! ### The frames of a scope follow its history -/

/-- `h.Tracks frames` says that `frames` are those that are open after `h`, the innermost first, and
that each holds its bindings. -/
inductive Tracks : History α → List (Frame α) → Prop where
  /-- Only the outermost frame is open. -/
  | root {h : History α} {f : Frame α} (hs : Settled h) (hf : h.Holds f) : Tracks h [f]
  /-- A frame was opened in others. -/
  | opened {before : History α} {f : Frame α} {fs : List (Frame α)} (inside : History α)
    (hframes : Tracks before fs) (hstays : Stays inside) (hs : Settled inside)
    (hf : inside.Holds f) : Tracks (inside ++ .push :: before) (f :: fs)

namespace Tracks

variable {h : History α} {f g : Frame α} {fs : List (Frame α)} {e : Event α}

theorem ne_nil (ht : h.Tracks fs) : fs ≠ [] := by
  cases ht <;> exact nofun

theorem push (ht : h.Tracks fs) : Tracks (.push :: h) ([] :: fs) :=
  opened [] ht stays_nil settled_nil holds_nil_nil

theorem bind (ht : h.Tracks (f :: fs)) (name : String) (v : α) :
    Tracks (.bind name v :: h) (f.insert name v :: fs) := by
  cases ht with
  | root hs hf => exact .root (hs.cons nofun) (hf.insert hs name v)
  | opened inside hframes hstays hs hf =>
    exact opened (.bind name v :: inside) hframes (hstays.cons (Int.le_refl 0))
      (hs.cons nofun) (hf.insert hs name v)

theorem lookup (ht : h.Tracks fs) (name : String) : Tracks (.lookup name :: h) fs := by
  cases ht with
  | root hs hf =>
    exact .root (hs.cons nofun) (hf.of_lastBound_iff fun _ _ ↦ lastBound_cons_iff nofun)
  | opened inside hframes hstays hs hf =>
    exact opened (.lookup name :: inside) hframes (hstays.cons (Int.le_refl 0))
      (hs.cons nofun) (hf.of_lastBound_iff fun _ _ ↦ lastBound_cons_iff nofun)

/-- The outermost frame is not closed. -/
theorem pop_root (ht : h.Tracks [f]) : Tracks (.pop :: h) [f] := by
  cases ht with
  | root hs hf =>
    exact .root (hs.cons nofun) (hf.of_lastBound_iff fun _ _ ↦ lastBound_cons_iff nofun)
  | opened _ hframes => exact absurd rfl hframes.ne_nil

/-- When a frame is closed, those around it are as they were when it was opened. -/
theorem pop (ht : h.Tracks (f :: g :: fs)) : Tracks (.pop :: h) (g :: fs) := by
  cases ht with
  | opened inside hframes hstays hs hf =>
    have hlast : ∀ (outside : History α) name v,
        LastBound (.pop :: inside ++ .push :: outside) name v ↔ LastBound outside name v :=
      fun _ _ _ ↦ lastBound_append_push_iff hstays
    cases hframes with
    | root hs' hf' => exact .root (hs'.block hstays hs) (hf'.of_lastBound_iff (hlast _))
    | opened outside hframes' hstays' hs' hf' =>
      have ht' := opened (.pop :: inside ++ .push :: outside) hframes' (hstays'.block hstays)
        (hs'.block hstays hs) (hf'.of_lastBound_iff (hlast _))
      simpa using ht'

end Tracks

/-- A history leaves a scope of the frames that are open after it. -/
theorem tracks_after (h : History α) : h.Tracks (after h).frames := by
  induction h with
  | nil => exact .root settled_nil holds_nil_nil
  | cons e h ih =>
    cases e with
    | push => exact ih.push
    | lookup name => exact ih.lookup name
    | bind name v =>
      rw [show after (.bind name v :: h) = (after h).bind name v from rfl, frames_bind]
      exact (frames_eq_cons (after h) ▸ ih).bind name v
    | pop =>
      show Tracks (.pop :: h) (after h).pop.frames
      rcases hframes : (after h).frames with _ | ⟨f, _ | ⟨g, fs⟩⟩
      · exact absurd hframes ih.ne_nil
      · rw [pop_of_frames_eq hframes, hframes]
        exact (hframes ▸ ih).pop_root
      · rw [frames_pop hframes]
        exact (hframes ▸ ih).pop

/-! ### What is said of open frames -/

section

variable {h inside before : History α} {fs : List (Frame α)}

/-- All frames are closed but the outermost one. -/
theorem Tracks.settled_iff (ht : h.Tracks fs) : Settled h ↔ fs.length = 1 := by
  cases ht with
  | root hs hf => exact iff_of_true hs rfl
  | opened inside hframes hstays =>
    refine iff_of_false (not_settled_append_push hstays) fun hlen ↦ hframes.ne_nil ?_
    exact List.length_eq_zero_iff.1 (Nat.succ.inj hlen)

/-- If all was closed, only the outermost frame is open. -/
theorem Settled.eq_of_open (hs : Settled h) (ho : h.Open inside) : inside = h := by
  rcases ho with rfl | ⟨before, heq, hstays⟩
  · rfl
  · exact absurd hstays (hs inside before heq)

/-- In a frame that was opened last, those around it are open that were open before. -/
theorem open_append_push_iff (hstays : Stays inside) (hs : Settled inside) {i : History α} :
    Open (inside ++ .push :: before) i ↔
      i = inside ∨ ∃ outside, before.Open outside ∧ i = inside ++ .push :: outside := by
  constructor
  · rintro (rfl | ⟨b, heq, hi⟩)
    · exact .inr ⟨before, .inl rfl, rfl⟩
    · rcases List.append_eq_append_iff.1 heq with ⟨c, rfl, hc⟩ | ⟨c, hc, hb⟩
      · cases c with
        | nil => exact .inl (List.append_nil inside)
        | cons e c =>
          obtain ⟨rfl, rfl⟩ := List.cons.inj hc
          exact .inr ⟨c, .inr ⟨b, rfl, (stays_cons_iff.1 hi.of_append).2⟩, rfl⟩
      · cases c with
        | nil => exact .inl (hc.trans (List.append_nil i)).symm
        | cons e c =>
          obtain rfl : Event.push = e := (List.cons.inj hb).1
          exact absurd hi (hs i c hc)
  · rintro (rfl | ⟨outside, rfl | ⟨b, rfl, ho⟩, rfl⟩)
    · exact .inr ⟨before, rfl, hstays⟩
    · exact .inl rfl
    · exact .inr ⟨b, by simp, hstays.append (ho.cons (show (0 : Int) ≤ 1 by decide))⟩

/-- A look-up finds the last value of a name in the innermost frame that binds it. -/
theorem Tracks.lookup_spec (ht : h.Tracks fs) (name : String) :
    match fs.findSome? (·.get? name) with
    | some v => h.Finds name v
    | none => ∀ inside, h.Open inside → ∀ v, ¬ inside.LastBound name v := by
  induction ht with
  | @root h f hs hf =>
    rw [List.findSome?_cons]
    cases hget : f.get? name with
    | some v =>
      refine ⟨h, .inl rfl, hf.get?_eq_some_iff.1 hget, fun inner ho hlt ↦ ?_⟩
      rw [hs.eq_of_open ho] at hlt
      exact absurd hlt (Nat.lt_irrefl _)
    | none =>
      intro inside ho v hv
      rw [hs.eq_of_open ho, ← hf.get?_eq_some_iff, hget] at hv
      cases hv
  | @opened before f fs inside hframes hstays hs hf ih =>
    have hiff := @open_append_push_iff _ inside before hstays hs
    rw [List.findSome?_cons]
    cases hget : f.get? name with
    | some v =>
      refine ⟨inside, hiff.2 (.inl rfl), hf.get?_eq_some_iff.1 hget, fun inner ho hlt ↦ ?_⟩
      rcases hiff.1 ho with rfl | ⟨outside, -, rfl⟩
      · exact absurd hlt (Nat.lt_irrefl _)
      · rw [List.length_append] at hlt
        omega
    | none =>
      have hnone : ∀ v, ¬ inside.LastBound name v := by
        intro v hv
        rw [← hf.get?_eq_some_iff, hget] at hv
        cases hv
      -- All that is said of a frame around this one is said of what came before it was opened.
      have hlast : ∀ outside v,
          LastBound (inside ++ .push :: outside) name v ↔ LastBound outside name v :=
        fun _ _ ↦ lastBound_append_push_iff hstays.tail
      cases hfind : fs.findSome? (·.get? name) with
      | some v =>
        rw [hfind] at ih
        obtain ⟨outside, ho, hv, hinner⟩ := ih
        refine ⟨inside ++ .push :: outside, hiff.2 (.inr ⟨outside, ho, rfl⟩),
          (hlast outside v).2 hv, fun inner hi hlt w hw ↦ ?_⟩
        rcases hiff.1 hi with rfl | ⟨other, hother, rfl⟩
        · exact hnone w hw
        · refine hinner other hother ?_ w ((hlast other w).1 hw)
          simpa using hlt
      | none =>
        rw [hfind] at ih
        intro i hi v hv
        rcases hiff.1 hi with rfl | ⟨outside, ho, rfl⟩
        · exact hnone v hv
        · exact ih outside ho v ((hlast outside v).1 hv)

end

/-! ### A frame of its own -/

/-- What closes no frame that was open leaves those around the innermost one, and puts as many on
top of them as it has left open. -/
theorem exists_frames_onto {h : History α} (hs : Stays h) (s : Scope α) :
    ∃ top : List (Frame α), (onto s h).frames = top ++ s.outer ∧ top.length = height h + 1 := by
  induction h with
  | nil => exact ⟨[s.innermost], s.frames_eq_cons, rfl⟩
  | cons e h ih =>
    obtain ⟨he, hstays⟩ := stays_cons_iff.1 hs
    obtain ⟨top, hframes, hlen⟩ := ih hstays
    have hheight := hstays.height_nonneg
    cases e with
    | push =>
      refine ⟨[] :: top, congrArg ([] :: ·) hframes, ?_⟩
      rw [List.length_cons, Int.natCast_succ, hlen, height, Event.change]
      omega
    | lookup name => exact ⟨top, hframes, by rw [height, Event.change]; omega⟩
    | bind name v =>
      match top, hlen with
      | [], hlen =>
        rw [List.length_nil] at hlen
        omega
      | t :: ts, hlen =>
        rw [frames_eq_cons] at hframes
        obtain ⟨rfl, houter⟩ := List.cons.inj hframes
        refine ⟨(onto s h).innermost.insert name v :: ts, ?_, ?_⟩
        · show ((onto s h).bind name v).frames = _
          rw [frames_bind, houter]
          rfl
        · rw [height, Event.change]
          exact hlen.trans (by omega)
    | pop =>
      rw [Event.change] at he
      match top, hlen with
      | [], hlen | [t], hlen =>
        simp only [List.length_nil, List.length_cons] at hlen
        omega
      | t :: u :: ts, hlen =>
        refine ⟨u :: ts, frames_pop hframes, ?_⟩
        rw [height, Event.change]
        rw [List.length_cons, Int.natCast_succ] at hlen
        omega

/-- What closes all frames that it opened, and no others, leaves no trace outside a frame of its
own. -/
theorem pop_onto_push {h : History α} (hstays : Stays h) (hs : Settled h) (s : Scope α) :
    (onto s.push h).pop = s := by
  refine pop_eq_of_outer_eq ?_
  obtain ⟨top, hframes, hlen⟩ := exists_frames_onto hstays s.push
  rw [hstays.height_eq_zero hs] at hlen
  obtain ⟨t, rfl⟩ : ∃ t, top = [t] := List.length_eq_one_iff.1 (by omega)
  rw [outer, hframes]
  rfl

end History

end Scope

end TypedCss
