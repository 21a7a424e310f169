import ChatFlow.Proofs.Text.Token

/-!
# Filling from left to right

`Fills` is the rule by which a text is filled. It is read once, from left to right. A token that
begins at the place that is reached is replaced by its substitute, or stays if it has none, and the
reading goes on behind the token, so that nothing in a substitute is read. Where no token begins,
one character stays. `fills_iff` says that `fill` follows this rule, and that only one text does.
-/

namespace ChatFlow.Text.TokenShape

variable {shape : TokenShape} {substitute : List Char → Option (List Char)} {s t g : List Char}
  {c : Char}

/-- The first text becomes the second one when its tokens are replaced by their substitutes. -/
inductive Fills (shape : TokenShape) (substitute : List Char → Option (List Char)) :
    List Char → List Char → Prop
  | nil : Fills shape substitute [] []
  | char {c : Char} {s t : List Char}
      (hnone : ∀ g rest, shape.Encloses g → c :: s ≠ shape.wrap g ++ rest)
      (hrest : Fills shape substitute s t) : Fills shape substitute (c :: s) (c :: t)
  | token {g s t : List Char} (hg : shape.Encloses g) (hrest : Fills shape substitute s t) :
      Fills shape substitute (shape.wrap g ++ s) ((substitute g).getD (shape.wrap g) ++ t)

variable (hshape : shape.Definite)
include hshape

theorem token?_eq_none_iff :
    shape.token? s = none ↔ ∀ g rest, shape.Encloses g → s ≠ shape.wrap g ++ rest := by
  rw [Option.eq_none_iff_forall_ne_some]
  refine forall_congr' fun g => ?_
  rw [ne_eq, token?_eq_some_iff hshape]
  constructor
  · exact fun h rest hg hs => h ⟨hg, rest, hs⟩
  · rintro h ⟨hg, rest, hs⟩
    exact h rest hg hs

theorem fill_wrap_append (hg : shape.Encloses g) (s : List Char) :
    shape.fill substitute (shape.wrap g ++ s) =
      (substitute g).getD (shape.wrap g) ++ shape.fill substitute s := by
  rw [fill_eq, fill_eq, cut_wrap hshape hg]
  rfl

theorem fill_cons (h : ∀ g rest, shape.Encloses g → c :: s ≠ shape.wrap g ++ rest) :
    shape.fill substitute (c :: s) = c :: shape.fill substitute s := by
  rw [fill_eq, fill_eq, cut_char ((token?_eq_none_iff hshape).mpr h)]
  rfl

theorem fills_fill (substitute : List Char → Option (List Char)) (s : List Char) :
    shape.Fills substitute s (shape.fill substitute s) := by
  have hpieces (ps : List Piece) (hps : shape.IsCut ps) :
      shape.Fills substitute (shape.spell ps) (ps.flatMap (shape.filling substitute)) := by
    induction ps with
    | nil => exact .nil
    | cons p ps ih =>
      cases p with
      | char c =>
        obtain ⟨hnone, hrest⟩ := isCut_char.mp hps
        exact .char ((token?_eq_none_iff hshape).mp hnone) (ih hrest)
      | token g =>
        obtain ⟨hg, hrest⟩ := (isCut_token hshape).mp hps
        exact .token hg (ih hrest)
  simpa only [spell_cut, ← fill_eq] using hpieces (shape.cut s) (isCut_cut s)

theorem fills_iff : shape.Fills substitute s t ↔ t = shape.fill substitute s := by
  constructor
  · intro h
    induction h with
    | nil => rfl
    | char hnone _ ih => rw [fill_cons hshape hnone, ih]
    | token hg _ ih => rw [fill_wrap_append hshape hg, ih]
  · rintro rfl
    exact fills_fill hshape substitute s

end ChatFlow.Text.TokenShape
