import TypedCss.Proofs.Relabeling

/-!
# Tokens without places

What a token says is its content; where it stands is its span. Tokens of any source can be had by
moving tokens that stand nowhere and are only counted (`Token.map_move_numbered`), and lists that
agree in their contents are had from the same ones (`Token.numbered_eq_of_content`). So two sources
with the same contents can be compared by comparing each with what is counted, and so can two that
agree in their contents only up to some token (`Token.getElem?_numbered_move`).

A relocation goes by position. To count, a position of its own is needed for each natural number,
however great; `Position.nth` makes one from the name of the file. The first of them is where a
file without a name starts, and no token stands there.
-/

namespace TypedCss

/-- The `n`-th of the positions that only count. -/
def Position.nth (n : Nat) : Position := ⟨0, String.ofList (List.replicate n ' ')⟩

@[simp] theorem Position.length_file_nth (n : Nat) : (nth n).file.length = n := by
  rw [nth, String.length_ofList, List.length_replicate]

namespace Token

/-- What a token says, without where. -/
def content (t : Token) : TokenKind × String := (t.kind, t.value)

/-- The contents of tokens as tokens, with their numbers in place of their spans. -/
def numbered (ts : List Token) : List Token :=
  (ts.map content).mapIdx fun n (kind, value) ↦ ⟨kind, value, .empty (.nth (n + 1))⟩

/-- Numbered tokens are the same if the contents are. -/
theorem numbered_eq_of_content {ts us : List Token} (h : ts.map content = us.map content) :
    numbered ts = numbered us := by
  rw [numbered, h, numbered]

@[simp] theorem length_numbered (ts : List Token) : (numbered ts).length = ts.length := by
  rw [numbered, List.length_mapIdx, List.length_map]

theorem getElem?_numbered (ts : List Token) (n : Nat) :
    (numbered ts)[n]? = ts[n]?.map fun t ↦ ⟨t.kind, t.value, .empty (.nth (n + 1))⟩ := by
  rw [numbered, List.getElem?_mapIdx, List.getElem?_map, Option.map_map]
  rfl

theorem numbered_concat (ts : List Token) (t : Token) :
    numbered (ts ++ [t]) = numbered ts ++ [⟨t.kind, t.value, .empty (.nth (ts.length + 1))⟩] := by
  rw [numbered, List.map_append, List.map_singleton, List.mapIdx_concat, List.length_map]
  rfl

/-- There is no end among numbered tokens if there is none among the tokens. -/
theorem kind_ne_eof_of_mem_numbered {ts : List Token} (h : ∀ t ∈ ts, t.kind ≠ .eof) :
    ∀ t ∈ numbered ts, t.kind ≠ .eof := by
  intro t ht
  obtain ⟨n, hn⟩ := List.mem_iff_getElem?.1 ht
  rw [getElem?_numbered, Option.map_eq_some_iff] at hn
  obtain ⟨u, hu, rfl⟩ := hn
  exact h u (List.mem_of_getElem? hu)

end Token

/-- The relocation of what is counted to where the tokens of a file stand. -/
def Relocation.to (file : String) (ts : List Token) : Relocation where
  start p := match p.file.length with
    | 0 => ⟨0, file⟩
    | n + 1 => (ts[n]?.map (·.span.start)).getD ⟨0, file⟩
  stop p := match p.file.length with
    | 0 => ⟨0, file⟩
    | n + 1 => (ts[n]?.map (·.span.stop)).getD ⟨0, file⟩

namespace Relocation

variable {file : String} {ts : List Token} {n : Nat} {t : Token}

theorem start_to_nth (h : ts[n]? = some t) :
    (Relocation.to file ts).start (.nth (n + 1)) = t.span.start := by
  simp only [Relocation.to, Position.length_file_nth, h]
  rfl

theorem stop_to_nth (h : ts[n]? = some t) :
    (Relocation.to file ts).stop (.nth (n + 1)) = t.span.stop := by
  simp only [Relocation.to, Position.length_file_nth, h]
  rfl

end Relocation

namespace Token

/-- A numbered token is moved to the place of a token that says the same. -/
theorem getElem?_numbered_move (file : String) {ts us : List Token} {n : Nat}
    (h : ts[n]?.map content = us[n]?.map content) :
    (numbered ts)[n]?.map (Token.move (.to file us)) = us[n]? := by
  rw [getElem?_numbered]
  cases hu : us[n]? with
  | none =>
    rw [hu, Option.map_none, Option.map_eq_none_iff] at h
    rw [h]
    rfl
  | some u =>
    rw [hu, Option.map_some, Option.map_eq_some_iff] at h
    obtain ⟨t, ht, hcontent⟩ := h
    obtain ⟨hkind, hvalue⟩ := Prod.mk.inj hcontent
    rw [ht, Option.map_some, Option.map_some, move, Span.move, Span.empty,
      Relocation.start_to_nth hu, Relocation.stop_to_nth hu, hkind, hvalue]

/-- The tokens of a file are had by moving what is counted. -/
theorem map_move_numbered (file : String) (ts : List Token) :
    (numbered ts).map (Token.move (.to file ts)) = ts := by
  refine List.ext_getElem? fun n ↦ ?_
  rw [List.getElem?_map, getElem?_numbered_move file rfl]

end Token

end TypedCss
