import TypedCss.Token.TokenCursor

/-!
# Passing tokens

`Passes c ts d` says that the tokens `ts` stand at the cursor `c` and that `d` is the cursor after
them. Readers of tokens are described by what they pass. One token is passed by advancing
(`passes_advance`), lists are passed one after the other (`Passes.append`, `Passes.exists_split`),
and the cursor after a list is the only one (`Passes.unique`).
-/

namespace TypedCss.TokenCursor

/-! ### The index of a token -/

/-- The index of the current token: how many tokens are behind. -/
def index (c : TokenCursor) : Nat := c.passed.length

/-- A token that is passed is behind instead of ahead. -/
theorem Reaches.index_add_length {c d : TokenCursor} (h : c.Reaches d) :
    d.index + d.ahead.length = c.index + c.ahead.length := by
  induction h with
  | refl => rfl
  | @step d _ ih =>
    rw [← ih]
    obtain ⟨file, passed, ahead, last⟩ := d
    cases ahead with
    | nil => rfl
    | cons t ts =>
      show (t :: passed).length + ts.length = passed.length + (t :: ts).length
      rw [List.length_cons, List.length_cons]
      omega

theorem Reaches.index_le {c d : TokenCursor} (h : c.Reaches d) : c.index ≤ d.index := by
  have hadd := h.index_add_length
  have hle := h.length_le
  omega

theorem Before.index_lt {c d : TokenCursor} (h : c.Before d) : c.index < d.index := by
  have hadd := h.reaches.index_add_length
  have hlt := h.shorter
  omega

/-- What is reached after a token that is not an end is further on. -/
theorem Reaches.index_lt_of_advance {c d : TokenCursor} (h : c.advance.Reaches d)
    (hk : c.kind ≠ .eof) : c.index < d.index :=
  Nat.lt_of_lt_of_le (before_advance_of_kind_ne hk).index_lt h.index_le

/-! ### Lists of tokens -/

/-- `Passes c ts d` says that `d` is the cursor after the tokens `ts`, which stand at `c`. -/
structure Passes (c : TokenCursor) (ts : List Token) (d : TokenCursor) : Prop where
  /-- The tokens stand ahead. -/
  ahead : c.ahead = ts ++ d.ahead
  /-- Afterwards they are behind. -/
  passed : d.passed = ts.reverse ++ c.passed
  /-- The last token stays. -/
  last : d.last = c.last
  /-- The file stays. -/
  file : d.file = c.file

/-- Advancing passes the current token, unless it is the last one. -/
theorem passes_advance {c : TokenCursor} (h : c.ahead ≠ []) : c.Passes [c.current] c.advance := by
  obtain ⟨file, passed, ahead, last⟩ := c
  cases ahead with
  | nil => exact absurd rfl h
  | cons t ts => exact ⟨rfl, rfl, rfl, rfl⟩

/-- The next token is the one that is current after advancing. -/
theorem peek_one {c : TokenCursor} (h : c.ahead ≠ []) : c.peek 1 = c.advance.kind := by
  obtain ⟨file, passed, ahead, last⟩ := c
  rcases ahead with _ | ⟨t, _ | ⟨u, us⟩⟩
  · exact absurd rfl h
  · rfl
  · rfl

/-- A cursor that is reached stands at one of the tokens ahead or at the last one. -/
theorem Reaches.current_mem {c d : TokenCursor} (h : c.Reaches d) :
    d.current ∈ c.ahead ++ [c.last.toToken] := by
  have hsub : d.ahead ⊆ c.ahead ∧ d.last = c.last := by
    induction h with
    | refl => exact ⟨List.Subset.refl _, rfl⟩
    | @step d _ ih =>
      obtain ⟨file, passed, ahead, last⟩ := d
      cases ahead with
      | nil => exact ih
      | cons t ts => exact ⟨fun u hu ↦ ih.1 (List.mem_cons_of_mem t hu), ih.2⟩
  rw [current]
  cases hd : d.ahead with
  | nil => simp [hsub.2]
  | cons t ts =>
    have ht : t ∈ d.ahead := by simp [hd]
    simp [hsub.1 ht]

namespace Passes

variable {c d e : TokenCursor} {t : Token} {ts us : List Token}

/-- No tokens are passed by staying. -/
theorem nil (c : TokenCursor) : c.Passes [] c := ⟨rfl, rfl, rfl, rfl⟩

theorem append (h : c.Passes ts d) (k : d.Passes us e) : c.Passes (ts ++ us) e where
  ahead := by rw [h.ahead, k.ahead, List.append_assoc]
  passed := by rw [k.passed, h.passed, List.reverse_append, List.append_assoc]
  last := k.last.trans h.last
  file := k.file.trans h.file

/-- The cursor after a list of tokens is the only one. -/
theorem unique (h : c.Passes ts d) (k : c.Passes ts e) : d = e := by
  obtain ⟨file, passed, ahead, last⟩ := d
  obtain ⟨file', passed', ahead', last'⟩ := e
  obtain rfl : ahead = ahead' := List.append_cancel_left (h.ahead.symm.trans k.ahead)
  obtain rfl : passed = passed' := h.passed.trans k.passed.symm
  obtain rfl : last = last' := h.last.trans k.last.symm
  obtain rfl : file = file' := h.file.trans k.file.symm
  rfl

/-- Passing no tokens is staying. -/
theorem eq_of_nil (h : c.Passes [] d) : d = c := h.unique (nil c)

/-- To pass a list of tokens is to advance over the first and then to pass the others. -/
theorem cons_iff :
    c.Passes (t :: ts) d ↔ c.ahead ≠ [] ∧ c.current = t ∧ c.advance.Passes ts d := by
  obtain ⟨file, passed, ahead, last⟩ := c
  cases ahead with
  | nil =>
    constructor
    · intro h
      exact absurd h.ahead (by simp)
    · intro h
      exact absurd rfl h.1
  | cons u us =>
    constructor
    · intro h
      obtain ⟨rfl, hus⟩ := List.cons.inj h.ahead
      exact ⟨by simp, rfl, hus, by rw [h.passed]; simp [advance], h.last, h.file⟩
    · rintro ⟨-, rfl, h⟩
      exact (passes_advance (by simp)).append h

/-- A cursor stands at the first of the tokens that are passed from it. -/
theorem kind_eq (h : c.Passes (t :: ts) d) : c.kind = t.kind :=
  congrArg Token.kind (cons_iff.1 h).2.1

/-- Two lists that stand one after the other are passed one after the other. -/
theorem exists_split (h : c.Passes (ts ++ us) e) : ∃ d, c.Passes ts d ∧ d.Passes us e := by
  induction ts generalizing c with
  | nil => exact ⟨c, nil c, h⟩
  | cons t ts ih =>
    obtain ⟨hc, ht, h⟩ := cons_iff.1 h
    obtain ⟨d, hts, hus⟩ := ih h
    exact ⟨d, cons_iff.2 ⟨hc, ht, hts⟩, hus⟩

/-- After a list of tokens, the last of them is the one that was passed last. -/
theorem lastPosition_eq (h : c.Passes (ts ++ [t]) d) : d.lastPosition = t.span.stop := by
  rw [lastPosition]
  rw [h.passed]
  simp

/-- A cursor after tokens is reached. -/
theorem reaches (h : c.Passes ts d) : c.Reaches d := by
  induction ts generalizing c with
  | nil =>
    obtain rfl := h.eq_of_nil
    exact .refl
  | cons t ts ih => exact c.reaches_advance.trans (ih (cons_iff.1 h).2.2)

/-- A cursor after at least one token is later. -/
theorem before (h : c.Passes ts d) (hts : ts ≠ []) : c.Before d := by
  refine ⟨h.reaches, ?_⟩
  have hlength := List.length_pos_iff.2 hts
  rw [h.ahead, List.length_append]
  omega

end Passes

end TypedCss.TokenCursor
