import TypedCss.Proofs.History

/-!
# What a scope replies

A `Command` is an operation on a scope, or commands that are carried out in a frame of their own.
`Command.Answers` says what a command is to reply after a history, and `Command.performAll_exact`
that each command of a sequence replies just that, whether frames are opened and closed in pairs or
not.
-/

namespace TypedCss

namespace Scope

variable {α : Type}

/-! ### Commands -/

/-- What can be asked of a scope. -/
inductive Command (α : Type) where
  /-- Open a frame. -/
  | push
  /-- Close the innermost frame. -/
  | pop
  /-- Bind a name. -/
  | bind (name : String) (value : α)
  /-- Look up a name. -/
  | lookup (name : String)
  /-- Carry out commands in a frame of their own. -/
  | inFrame (inner : List (Command α))

/-- What a command replies. -/
inductive Reply (α : Type) where
  /-- Nothing. -/
  | done
  /-- The bindings of the frame that was closed, if there was one. -/
  | closed (frame? : Option (Frame α))
  /-- The value that was found, if there was one. -/
  | found (value? : Option α)
  /-- The replies of the commands inside. -/
  | inFrame (inner : List (Reply α))

namespace Command

mutual

/-- Carries out a command. -/
def perform (s : Scope α) : Command α → Reply α × Scope α
  | push => (.done, s.push)
  | pop =>
    match s.pop? with
    | none => (.closed none, s)
    | some (frame, s) => (.closed (some frame), s)
  | bind name value => (.done, s.bind name value)
  | lookup name => (.found (s.lookup name), s)
  | inFrame inner =>
    let (replies, s) := s.inFrame (performAll · inner)
    (.inFrame replies, s)

/-- Carries out commands in turn. -/
def performAll (s : Scope α) : List (Command α) → List (Reply α) × Scope α
  | [] => ([], s)
  | c :: rest =>
    let (reply, s) := c.perform s
    let (replies, s) := performAll s rest
    (reply :: replies, s)

end

mutual

/-- The operations that a command comes to, the latest first. -/
def events : Command α → History α
  | push => [.push]
  | pop => [.pop]
  | bind name value => [.bind name value]
  | lookup name => [.lookup name]
  | inFrame inner => .pop :: (eventsAll inner ++ [.push])

/-- The operations that commands come to, the latest first. -/
def eventsAll : List (Command α) → History α
  | [] => []
  | c :: rest => eventsAll rest ++ c.events

end

/-! ### What commands are to reply -/

mutual

/-- `Answers h c r` says that after a history `h` a command is to reply `r`. -/
inductive Answers : History α → Command α → Reply α → Prop where
  /-- Opening a frame gives nothing. -/
  | push (h : History α) : Answers h push .done
  /-- If all frames were closed that were opened, there is none to close. -/
  | refused {h : History α} (hs : h.Settled) : Answers h pop (.closed none)
  /-- The frame that is closed is the one that was opened last of those that are still open. It
  gives the bindings that were made in it. -/
  | closed {inside before : History α} {frame : Frame α} (hstays : inside.Stays)
    (hs : inside.Settled) (hf : inside.Holds frame) :
    Answers (inside ++ .push :: before) pop (.closed (some frame))
  /-- Binding a name gives nothing. -/
  | bind (h : History α) (name : String) (v : α) : Answers h (bind name v) .done
  /-- A name has its last value in the innermost frame that binds it. -/
  | found {h : History α} {name : String} {v : α} (hv : h.Finds name v) :
    Answers h (lookup name) (.found (some v))
  /-- A name that no open frame binds is not found. -/
  | missed {h : History α} {name : String}
    (hn : ∀ inside, h.Open inside → ∀ v, ¬ inside.LastBound name v) :
    Answers h (lookup name) (.found none)
  /-- In a frame of their own, commands reply what they do after a push. -/
  | inFrame {h : History α} {inner : List (Command α)} {replies : List (Reply α)}
    (hinner : AnswersAll (.push :: h) inner replies) : Answers h (inFrame inner) (.inFrame replies)

/-- `AnswersAll h cs rs` says that after a history `h` commands are to reply `rs`, one after
another. -/
inductive AnswersAll : History α → List (Command α) → List (Reply α) → Prop where
  /-- There is nothing to reply. -/
  | nil (h : History α) : AnswersAll h [] []
  /-- The other commands see what the first one did. -/
  | cons {h : History α} {c : Command α} {r : Reply α} {cs : List (Command α)}
    {rs : List (Reply α)} (hr : Answers h c r) (hrs : AnswersAll (c.events ++ h) cs rs) :
    AnswersAll h (c :: cs) (r :: rs)

end

/-! ### What commands do -/

/-- Closing a frame gives the same scope whether its bindings are asked for or not. -/
theorem snd_perform_pop (s : Scope α) : ((pop : Command α).perform s).2 = s.pop := by
  obtain ⟨_ | ⟨f, fs⟩, root⟩ := s <;> rfl

theorem eventsAll_append (cs ds : List (Command α)) :
    eventsAll (cs ++ ds) = eventsAll ds ++ eventsAll cs := by
  induction cs with
  | nil => exact (List.append_nil _).symm
  | cons c cs ih => exact (congrArg (· ++ c.events) ih).trans (List.append_assoc ..)

mutual

/-- A command leaves the scope after the operations that it comes to. -/
theorem snd_perform : ∀ (c : Command α) (s : Scope α), (c.perform s).2 = c.events.onto s
  | push, _ | bind _ _, _ | lookup _, _ => rfl
  | pop, s => snd_perform_pop s
  | inFrame inner, s => by
    show (performAll s.push inner).2.pop = _
    rw [snd_performAll inner s.push, events]
    simp [History.onto, step]

/-- Commands leave the scope after the operations that they come to. -/
theorem snd_performAll : ∀ (cs : List (Command α)) (s : Scope α),
    (performAll s cs).2 = (eventsAll cs).onto s
  | [], _ => rfl
  | c :: cs, s => by
    show (performAll (c.perform s).2 cs).2 = _
    rw [snd_performAll cs, snd_perform c, eventsAll]
    simp [History.onto]

end

/-- A pop closes the frame that was opened last of those that are still open, if there is one. -/
theorem answers_pop (h : History α) :
    Answers h pop ((pop : Command α).perform (History.after h)).1 := by
  have ht := h.tracks_after
  rcases hs : History.after h with ⟨_ | ⟨f, fs⟩, root⟩ <;> rw [hs] at ht
  · exact .refused (ht.settled_iff.2 rfl)
  · generalize hframes : Scope.frames ⟨f :: fs, root⟩ = frames at ht
    cases ht with
    | root => simp [frames] at hframes
    | opened inside hbefore hstays hsettled hf =>
      obtain rfl : f = _ := (List.cons.inj hframes).1
      exact .closed hstays hsettled hf

/-- A look-up finds the last value of a name in the innermost open frame that binds it. -/
theorem answers_lookup (h : History α) (name : String) :
    Answers h (lookup name) ((lookup name : Command α).perform (History.after h)).1 := by
  have hspec := h.tracks_after.lookup_spec name
  show Answers h (lookup name) (.found ((History.after h).frames.findSome? (·.get? name)))
  split at hspec
  · rename_i v hv
    exact hv ▸ .found hspec
  · rename_i hv
    exact hv ▸ .missed hspec

mutual

/-- A command replies what it is to reply after the history of the scope. -/
theorem answers_perform : ∀ (c : Command α) (h : History α),
    Answers h c (c.perform (History.after h)).1
  | push, h => .push h
  | pop, h => answers_pop h
  | bind name v, h => .bind h name v
  | lookup name, h => answers_lookup h name
  | inFrame inner, h => .inFrame (answersAll_performAll inner (.push :: h))

/-- Commands reply what they are to reply after the history of the scope. -/
theorem answersAll_performAll : ∀ (cs : List (Command α)) (h : History α),
    AnswersAll h cs (performAll (History.after h) cs).1
  | [], h => .nil h
  | c :: cs, h => by
    have hrest := answersAll_performAll cs (c.events ++ h)
    rw [History.after_append, ← snd_perform] at hrest
    exact .cons (answers_perform c h) hrest

end

/-- Commands in a frame of their own come to a push, the commands, and a pop. -/
theorem snd_perform_inFrame (inner : List (Command α)) (s : Scope α) :
    ((inFrame inner).perform s).2 = (performAll s (push :: inner ++ [pop])).2 := by
  rw [snd_perform, snd_performAll]
  simp [events, eventsAll, eventsAll_append, History.onto]

/-- What commands do to a new scope is what is said of their history: each replies as it is to, and
the scope becomes the one that has this history. The outermost frame is always there; a pop is
refused, and changes nothing, if all that was opened was closed. In a frame of their own, commands
come to a push, the commands and a pop; if they close what they open and nothing else, then they
leave no trace. -/
theorem performAll_exact (cs : List (Command α)) :
    AnswersAll [] cs (performAll empty cs).1 ∧
      (performAll empty cs).2 = History.after (eventsAll cs) ∧
      (∀ h : History α, 1 ≤ (History.after h).depth ∧
        ((History.after h).pop? = none ↔ h.Settled) ∧
        (h.Settled → (History.after h).pop = History.after h)) ∧
      ∀ (s : Scope α) (inner : List (Command α)),
        ((inFrame inner).perform s).2 = (performAll s (push :: inner ++ [pop])).2 ∧
          ((eventsAll inner).Stays → (eventsAll inner).Settled →
            ((inFrame inner).perform s).2 = s) := by
  refine ⟨answersAll_performAll cs [], snd_performAll cs empty, fun h ↦ ?_, fun s inner ↦ ?_⟩
  · have hdepth : h.Settled ↔ (History.after h).depth = 1 := h.tracks_after.settled_iff
    refine ⟨?_, (pop?_eq_none_iff _).trans hdepth.symm, fun hs ↦ ?_⟩
    · exact List.length_pos_iff.2 h.tracks_after.ne_nil
    · obtain ⟨f, hf⟩ := List.length_eq_one_iff.1 (hdepth.1 hs)
      exact pop_of_frames_eq hf
  · refine ⟨snd_perform_inFrame inner s, fun hstays hs ↦ ?_⟩
    show (performAll s.push inner).2.pop = s
    rw [snd_performAll]
    exact History.pop_onto_push hstays hs s

/-- A name that is bound anew in frames that are closed again keeps its value. -/
theorem performAll_exact_shadowed :
    let inner : List (Command Nat) := [bind "a" 2, push, bind "a" 3, pop]
    (eventsAll inner).Stays ∧ (eventsAll inner).Settled ∧
      ((inFrame inner).perform (empty.bind "a" 1)).2 = empty.bind "a" 1 ∧
      (History.after (eventsAll inner)).pop = History.after (eventsAll inner) := by
  intro inner
  have hstays₀ : History.Stays [Event.bind "a" 2] := History.stays_nil.cons (Int.le_refl 0)
  have hstays₁ : History.Stays [Event.bind "a" 3] := History.stays_nil.cons (Int.le_refl 0)
  have hstays : (eventsAll inner).Stays := hstays₀.block hstays₁
  have hsettled₀ : History.Settled [Event.bind "a" 2] := History.settled_nil.cons nofun
  have hsettled₁ : History.Settled [Event.bind "a" 3] := History.settled_nil.cons nofun
  have hsettled : (eventsAll inner).Settled := hsettled₀.block hstays₁ hsettled₁
  obtain ⟨-, -, hhistory, hframe⟩ := performAll_exact inner
  exact ⟨hstays, hsettled, (hframe (empty.bind "a" 1) inner).2 hstays hsettled,
    (hhistory (eventsAll inner)).2.2 hsettled⟩

end Command

end Scope

end TypedCss
