/-!
# Tokens inside a text

A token is an opening, a run of inner characters that is not empty, and a closing. `cut` finds the
tokens of a text from left to right: at each character it takes the token that begins there, if
one does, and goes on after it; otherwise the character stands for itself. `cut_cons` is that rule,
and `flatten_cut` says that no character is lost or changed.
-/

namespace ChatFlow.Text

/-- What the tokens of one kind look like. -/
structure TokenShape where
  opening : List Char
  closing : List Char
  inner : Char → Bool

/-- A part of a text: a character on its own, or a token with the characters it encloses. -/
inductive Piece
  | char (c : Char)
  | token (enclosed : List Char)
  deriving DecidableEq, Repr

namespace TokenShape

variable (shape : TokenShape)

/-- The characters enclosed by the token at the front of a text. -/
def token? (s : List Char) : Option (List Char) :=
  let r := s.drop shape.opening.length
  let g := r.takeWhile shape.inner
  if shape.opening.isPrefixOf s && !g.isEmpty && shape.closing.isPrefixOf (r.drop g.length) then
    some g
  else none

def wrap (enclosed : List Char) : List Char :=
  shape.opening ++ enclosed ++ shape.closing

/-- The parts of a text after its first `skip` characters. -/
def cutAfter : Nat → List Char → List Piece
  | _, [] => []
  | skip + 1, _ :: r => cutAfter skip r
  | 0, c :: r =>
    match shape.token? (c :: r) with
    | some g => .token g :: cutAfter ((shape.wrap g).length - 1) r
    | none => .char c :: cutAfter 0 r

/-- The parts of a text, leftmost tokens first. -/
def cut (s : List Char) : List Piece :=
  shape.cutAfter 0 s

def text : Piece → List Char
  | .char c => [c]
  | .token g => shape.wrap g

def tokens (s : List Char) : List (List Char) :=
  (shape.cut s).filterMap fun
    | .token g => some g
    | .char _ => none

/-- The text in which every token that has a substitute is replaced by it. -/
def fill (substitute : List Char → Option (List Char)) (s : List Char) : List Char :=
  (shape.cut s).flatMap fun
    | .char c => [c]
    | .token g => (substitute g).getD (shape.wrap g)

theorem cutAfter_eq_drop (n : Nat) (s : List Char) : shape.cutAfter n s = shape.cut (s.drop n) := by
  induction s generalizing n with
  | nil => cases n <;> rfl
  | cons c r ih =>
    cases n with
    | zero => rfl
    | succ n => simpa [cutAfter] using ih n

@[simp] theorem cut_nil : shape.cut [] = [] := rfl

theorem token?_eq_some {s g : List Char} (h : shape.token? s = some g) :
    g ≠ [] ∧ ∃ rest, s = shape.wrap g ++ rest := by
  unfold token? at h
  simp only [Bool.and_eq_true, Option.ite_none_right_eq_some, Option.some.injEq] at h
  obtain ⟨⟨⟨h1, h2⟩, h3⟩, rfl⟩ := h
  obtain ⟨r, rfl⟩ := List.isPrefixOf_iff_prefix.1 h1
  rw [List.drop_left] at *
  obtain ⟨rest, hrest⟩ := List.isPrefixOf_iff_prefix.1 h3
  refine ⟨by simpa using h2, rest, ?_⟩
  have htake := List.prefix_iff_eq_append.1 (@List.takeWhile_prefix _ r shape.inner)
  rw [wrap, List.append_assoc, List.append_assoc, hrest, htake]

theorem length_wrap_pos {g : List Char} (h : g ≠ []) : 0 < (shape.wrap g).length := by
  have := List.length_pos_iff.2 h
  simp only [wrap, List.length_append]
  omega

theorem cut_cons (c : Char) (r : List Char) :
    shape.cut (c :: r) =
      match shape.token? (c :: r) with
      | some g => .token g :: shape.cut ((c :: r).drop (shape.wrap g).length)
      | none => .char c :: shape.cut r := by
  show shape.cutAfter 0 (c :: r) = _
  rw [cutAfter]
  split <;> rename_i h
  · rename_i g
    have hpos := shape.length_wrap_pos (shape.token?_eq_some h).1
    rw [cutAfter_eq_drop]
    cases hw : shape.wrap g with
    | nil => simp [hw] at hpos
    | cons d w => simp
  · rfl

/-- The parts of a text make up the text. -/
theorem flatten_cut (s : List Char) : (shape.cut s).flatMap shape.text = s := by
  induction hn : s.length using Nat.strongRecOn generalizing s with
  | ind n ih =>
    cases s with
    | nil => rfl
    | cons c r =>
      rw [cut_cons]
      split <;> rename_i h
      · rename_i g
        obtain ⟨hg, rest, hrest⟩ := shape.token?_eq_some h
        rw [hrest, List.drop_left, List.flatMap_cons, text]
        congr 1
        apply ih rest.length _ _ rfl
        have hlen := congrArg List.length hrest
        have hpos := shape.length_wrap_pos hg
        simp only [List.length_append] at hlen
        omega
      · rw [List.flatMap_cons, ih r.length (by simp at hn; omega) r rfl]
        rfl

end TokenShape

end ChatFlow.Text
