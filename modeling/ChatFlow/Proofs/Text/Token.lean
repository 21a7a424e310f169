import ChatFlow.Text.Token
import Mathlib.Data.List.Basic
import Mathlib.Data.List.Induction
import Mathlib.Data.List.TakeWhile

/-!
# Tokens of texts that are put together

A text is cut from left to right, and what a part of it is cut into depends on what stands before
it. `IsCut` says that pieces are those of the text they make up; pieces that stand next to each
other in a text are then also the pieces of their own text (`IsCut.left`, `IsCut.right`).

When the tokens of a text are replaced by substitutes, parts that were apart come together, and a
new token can arise across a border of a substitute. `cases_of_mem_fill` says that nothing else can
happen: every other token of the filled text is one of the text itself that has no substitute, or
lies within a substitute.
-/

namespace ChatFlow.Text

/-- What a token encloses. -/
def Piece.enclosed? : Piece → Option (List Char)
  | .token g => some g
  | .char _ => none

namespace TokenShape

/-- Nothing that a closing is made of can stand elsewhere in a token, so a token ends where it first
can. -/
structure Definite (shape : TokenShape) : Prop where
  opening_ne : shape.opening ≠ []
  closing_ne : shape.closing ≠ []
  opening_apart : ∀ c ∈ shape.closing, c ∉ shape.opening
  inner_apart : ∀ c ∈ shape.closing, shape.inner c = false

/-- What a token can enclose. -/
def Encloses (shape : TokenShape) (g : List Char) : Prop :=
  g ≠ [] ∧ ∀ c ∈ g, shape.inner c = true

variable {shape : TokenShape} {s l m g v : List Char} {c : Char} {p : Piece} {ps qs : List Piece}
  {substitute : List Char → Option (List Char)}

/-! ## The token at the front of a text -/

section Front

theorem encloses_of_token? (h : shape.token? s = some g) : shape.Encloses g := by
  refine ⟨(shape.token?_eq_some h).1, fun c hc => ?_⟩
  unfold token? at h
  simp only [Option.ite_none_right_eq_some, Option.some.injEq] at h
  obtain ⟨-, rfl⟩ := h
  exact List.mem_takeWhile_imp hc

variable (hshape : shape.Definite)
include hshape

theorem token?_eq_some_iff :
    shape.token? s = some g ↔ shape.Encloses g ∧ ∃ rest, s = shape.wrap g ++ rest := by
  constructor
  · intro h
    exact ⟨encloses_of_token? h, (shape.token?_eq_some h).2⟩
  · rintro ⟨⟨hg, hinner⟩, rest, rfl⟩
    obtain ⟨c, closing, hclosing⟩ := List.exists_cons_of_ne_nil hshape.closing_ne
    have hc : shape.inner c = false := hshape.inner_apart c (by simp [hclosing])
    have hrun : (g ++ (shape.closing ++ rest)).takeWhile shape.inner = g := by
      rw [hclosing, List.takeWhile_append_of_pos hinner, List.cons_append,
        List.takeWhile_cons_of_neg (by simp [hc]), List.append_nil]
    have hsplit : shape.wrap g ++ rest = shape.opening ++ (g ++ (shape.closing ++ rest)) := by
      simp only [wrap, List.append_assoc]
    have hopens : shape.opening.isPrefixOf (shape.wrap g ++ rest) = true := by
      rw [hsplit]
      exact List.isPrefixOf_iff_prefix.2 (List.prefix_append _ _)
    have hcloses : shape.closing.isPrefixOf (shape.closing ++ rest) = true :=
      List.isPrefixOf_iff_prefix.2 (List.prefix_append _ _)
    have hfilled : g.isEmpty = false := by simpa using hg
    unfold token?
    simp only [hopens]
    rw [hsplit, List.drop_left, hrun, List.drop_left, hcloses, hfilled]
    rfl

theorem token?_append (h : shape.token? l = some g) : shape.token? (l ++ m) = some g := by
  obtain ⟨hg, rest, rfl⟩ := (token?_eq_some_iff hshape).mp h
  exact (token?_eq_some_iff hshape).mpr ⟨hg, rest ++ m, by rw [List.append_assoc]⟩

theorem token?_eq_none_of_append (h : shape.token? (l ++ m) = none) : shape.token? l = none := by
  cases hl : shape.token? l with
  | none => rfl
  | some g => simp [token?_append hshape hl] at h

theorem cut_wrap (hg : shape.Encloses g) (rest : List Char) :
    shape.cut (shape.wrap g ++ rest) = .token g :: shape.cut rest := by
  have htoken : shape.token? (shape.wrap g ++ rest) = some g :=
    (token?_eq_some_iff hshape).mpr ⟨hg, rest, rfl⟩
  have hdrop : (shape.wrap g ++ rest).drop (shape.wrap g).length = rest := List.drop_left
  cases htext : shape.wrap g ++ rest with
  | nil =>
    have hpos := shape.length_wrap_pos hg.1
    simp [List.append_eq_nil_iff.mp htext] at hpos
  | cons c r =>
    rw [htext] at htoken hdrop
    rw [cut_cons, htoken]
    exact congrArg (_ :: shape.cut ·) hdrop

end Front

theorem cut_char {r : List Char} (h : shape.token? (c :: r) = none) :
    shape.cut (c :: r) = .char c :: shape.cut r := by
  rw [cut_cons, h]

/-! ## Pieces that belong together -/

theorem tokens_eq (s : List Char) : shape.tokens s = (shape.cut s).filterMap Piece.enclosed? := by
  unfold tokens
  congr

theorem mem_tokens : g ∈ shape.tokens s ↔ .token g ∈ shape.cut s := by
  rw [tokens_eq, List.mem_filterMap]
  constructor
  · rintro ⟨p, hp, henclosed⟩
    cases p with
    | char c => simp [Piece.enclosed?] at henclosed
    | token g' => exact Option.some.inj henclosed ▸ hp
  · intro h
    exact ⟨_, h, rfl⟩

@[simp] theorem text_char (c : Char) : shape.text (.char c) = [c] := rfl

@[simp] theorem text_token (g : List Char) : shape.text (.token g) = shape.wrap g := rfl

/-- The text that pieces make up. -/
def spell (shape : TokenShape) (ps : List Piece) : List Char :=
  ps.flatMap shape.text

@[simp] theorem spell_nil : shape.spell [] = [] := rfl

@[simp] theorem spell_cons (p : Piece) (ps : List Piece) :
    shape.spell (p :: ps) = shape.text p ++ shape.spell ps := rfl

@[simp] theorem spell_append (ps qs : List Piece) :
    shape.spell (ps ++ qs) = shape.spell ps ++ shape.spell qs :=
  List.flatMap_append

@[simp] theorem spell_chars (x : List Char) : shape.spell (x.map .char) = x := by
  induction x with
  | nil => rfl
  | cons c x ih => exact congrArg (c :: ·) ih

@[simp] theorem spell_cut (s : List Char) : shape.spell (shape.cut s) = s :=
  shape.flatten_cut s

/-- The pieces are those that the text they make up is cut into. -/
def IsCut (shape : TokenShape) (ps : List Piece) : Prop :=
  shape.cut (shape.spell ps) = ps

theorem isCut_cut (s : List Char) : shape.IsCut (shape.cut s) := by
  rw [IsCut, spell_cut]

theorem isCut_nil : shape.IsCut [] := rfl

theorem isCut_char : shape.IsCut (.char c :: ps) ↔
    shape.token? (c :: shape.spell ps) = none ∧ shape.IsCut ps := by
  show shape.cut (c :: shape.spell ps) = _ ↔ _
  cases h : shape.token? (c :: shape.spell ps) with
  | none => simp [cut_char h, IsCut]
  | some g => simp [cut_cons, h]

section Pieces

variable (hshape : shape.Definite)
include hshape

theorem isCut_token : shape.IsCut (.token g :: ps) ↔ shape.Encloses g ∧ shape.IsCut ps := by
  constructor
  · intro h
    have hg : shape.Encloses g := by
      cases htext : shape.spell (.token g :: ps) with
      | nil => simp [IsCut, htext] at h
      | cons c r =>
        rw [IsCut, htext, cut_cons] at h
        cases htoken : shape.token? (c :: r) with
        | none => simp [htoken] at h
        | some g' =>
          simp only [htoken, List.cons.injEq, Piece.token.injEq] at h
          exact h.1 ▸ encloses_of_token? htoken
    have hrest : shape.cut (shape.wrap g ++ shape.spell ps) = .token g :: ps := h
    rw [cut_wrap hshape hg] at hrest
    exact ⟨hg, (List.cons.inj hrest).2⟩
  · rintro ⟨hg, hps⟩
    exact (cut_wrap hshape hg _).trans (congrArg _ hps)

theorem IsCut.right (h : shape.IsCut (ps ++ qs)) : shape.IsCut qs := by
  induction ps with
  | nil => exact h
  | cons p ps ih =>
    cases p with
    | char c => exact ih (isCut_char.mp h).2
    | token g => exact ih ((isCut_token hshape).mp h).2

theorem IsCut.left (h : shape.IsCut (ps ++ qs)) : shape.IsCut ps := by
  induction ps with
  | nil => exact isCut_nil
  | cons p ps ih =>
    cases p with
    | char c =>
      obtain ⟨hnone, hrest⟩ : shape.token? (c :: shape.spell (ps ++ qs)) = none ∧
          shape.IsCut (ps ++ qs) := isCut_char.mp h
      rw [spell_append] at hnone
      exact isCut_char.mpr ⟨token?_eq_none_of_append hshape hnone, ih hrest⟩
    | token g =>
      obtain ⟨hg, hrest⟩ := (isCut_token hshape).mp h
      exact (isCut_token hshape).mpr ⟨hg, ih hrest⟩

end Pieces

/-! ## Tokens that are found within others -/

theorem exists_pieces_before {x : List Char} (hclosing : shape.closing ≠ [])
    (hx : ∀ c ∈ x, c ∉ shape.closing) (h : shape.spell ps = l ++ x) :
    ∃ qs, ps = qs ++ x.map .char := by
  induction x using List.reverseRecOn generalizing ps with
  | nil => exact ⟨ps, by simp⟩
  | append_singleton x c ih =>
    rcases List.eq_nil_or_concat ps with rfl | ⟨ps, p, rfl⟩
    · simp at h
    · have hlast : shape.spell ps ++ shape.text p = (l ++ x) ++ [c] := by simpa using h
      cases p with
      | char d =>
        obtain ⟨hrest, hd⟩ := List.append_inj' hlast rfl
        obtain rfl := (List.cons.inj hd).1
        obtain ⟨qs, rfl⟩ := ih (fun c hc => hx c (by simp [hc])) hrest
        exact ⟨qs, by simp⟩
      | token t =>
        obtain ⟨front, e, he⟩ := (List.eq_nil_or_concat shape.closing).resolve_left hclosing
        have hend : (shape.spell ps ++ shape.opening ++ t ++ front) ++ [e] = (l ++ x) ++ [c] := by
          rw [← hlast]
          simp [wrap, he]
        obtain rfl := (List.cons.inj (List.append_inj' hend rfl).2).1
        exact absurd (by simp [he]) (hx e (by simp))

theorem exists_of_append_eq {l' m' : List Char} (h : l ++ m = l' ++ m')
    (hlength : l'.length ≤ l.length) : ∃ u, l = l' ++ u ∧ m' = u ++ m := by
  rcases List.append_eq_append_iff.mp h with ⟨u, hu, hm⟩ | hsplit
  · have hu' : u = [] := by
      refine List.eq_nil_of_length_eq_zero ?_
      have hsum := congrArg List.length hu
      simp only [List.length_append] at hsum
      omega
    subst hu'
    exact ⟨[], by simpa using hu.symm, by simpa using hm.symm⟩
  · exact hsplit

section Within

variable (hshape : shape.Definite)
include hshape

theorem not_mem_closing_of_overlap {t x rest : List Char} (ht : shape.Encloses t)
    (hshort : x.length < (shape.wrap t).length)
    (h : shape.wrap t ++ l = x ++ (shape.wrap g ++ rest)) : ∀ c ∈ x, c ∉ shape.closing := by
  obtain ⟨u, hu, hrest⟩ := exists_of_append_eq h hshort.le
  intro c hc hclosing
  rcases List.append_eq_append_iff.mp hu with ⟨d, -, hdu⟩ | ⟨d, hd, -⟩
  · -- the second token would begin within the closing of the first
    obtain ⟨o, opening, ho⟩ := List.exists_cons_of_ne_nil hshape.opening_ne
    cases u with
    | nil =>
      rw [hu, List.append_nil] at hshort
      exact absurd hshort (Nat.lt_irrefl _)
    | cons e u =>
      rw [wrap, ho] at hrest
      obtain ⟨rfl, -⟩ := List.cons.inj hrest
      exact hshape.opening_apart o (by simp [hdu]) (by simp [ho])
  · have hmem : c ∈ shape.opening ++ t := by simp [hd, hc]
    rcases List.mem_append.mp hmem with hopening | hinner
    · exact hshape.opening_apart c hclosing hopening
    · have hsome := ht.2 c hinner
      simp [hshape.inner_apart c hclosing] at hsome

theorem not_begins_within {before after : List Piece} {t x : List Char}
    (hcut : shape.IsCut (before ++ .token g :: after)) (hbefore : shape.spell before = l ++ x)
    (ht : shape.Encloses t) (hx : x ≠ []) (hshort : x.length < (shape.wrap t).length) :
    shape.wrap t ++ m ≠ x ++ (shape.wrap g ++ shape.spell after) := by
  intro h
  have hapart := not_mem_closing_of_overlap hshape ht hshort h
  -- so these characters are pieces of their own, though the other token begins with them
  obtain ⟨qs, rfl⟩ := exists_pieces_before hshape.closing_ne hapart hbefore
  rw [List.append_assoc] at hcut
  obtain ⟨c, x, rfl⟩ := List.exists_cons_of_ne_nil hx
  have hnone : shape.token? (c :: shape.spell (x.map .char ++ .token g :: after)) = none :=
    (isCut_char.mp (IsCut.right hshape hcut)).1
  have hfront : c :: shape.spell (x.map .char ++ .token g :: after) = shape.wrap t ++ m := by
    simp [h]
  rw [hfront, (token?_eq_some_iff hshape).mpr ⟨ht, m, rfl⟩] at hnone
  simp at hnone

theorem mem_of_within {before after : List Piece} {x rest more : List Char}
    (hcut : shape.IsCut (before ++ .token g :: after)) (hps : shape.IsCut ps)
    (hbefore : shape.spell before = l ++ x) (hafter : shape.spell after = rest ++ more)
    (h : shape.spell ps = x ++ (shape.wrap g ++ rest)) : .token g ∈ ps := by
  obtain ⟨hg, -⟩ := (isCut_token hshape).mp (IsCut.right hshape hcut)
  induction ps generalizing l x with
  | nil =>
    have hpos := shape.length_wrap_pos hg.1
    have hlength := congrArg List.length h
    simp only [spell_nil, List.length_nil, List.length_append] at hlength
    omega
  | cons p ps ih =>
    by_cases hx : x = []
    · subst hx
      have hfront : shape.cut (shape.spell (p :: ps)) = .token g :: shape.cut rest := by
        rw [h, List.nil_append, cut_wrap hshape hg]
      obtain ⟨rfl, -⟩ := List.cons.inj (hps.symm.trans hfront)
      exact List.mem_cons_self
    · have hlater : shape.IsCut ps := by
        rw [← List.singleton_append] at hps
        exact IsCut.right hshape hps
      -- the first piece ends before the token begins
      have hends : (shape.text p).length ≤ x.length := by
        cases p with
        | char d => exact List.length_pos_iff.mpr hx
        | token t =>
          obtain ⟨ht, -⟩ := (isCut_token hshape).mp hps
          by_contra hshort
          refine not_begins_within hshape hcut hbefore ht hx (Nat.not_le.mp hshort)
            (m := shape.spell ps ++ more) ?_
          rw [hafter, ← List.append_assoc, ← text_token, ← spell_cons, h]
          simp only [List.append_assoc]
      obtain ⟨x', rfl, hrest⟩ := exists_of_append_eq h.symm hends
      refine List.mem_cons_of_mem _ (ih (l := l ++ shape.text p) hlater ?_ hrest)
      rw [hbefore, List.append_assoc]

end Within

/-! ## Tokens across a border -/

/-- In the text that is put together of `l` and `m`, a token that encloses `g` begins in `l` and
ends in `m`. -/
def Crosses (shape : TokenShape) (l m g : List Char) : Prop :=
  ∃ before after, shape.cut (l ++ m) = before ++ .token g :: after ∧
    (shape.spell before).length < l.length ∧
    l.length < (shape.spell before).length + (shape.wrap g).length

theorem within_or_crosses {before after : List Piece}
    (hcut : shape.IsCut (before ++ .token g :: after))
    (h : shape.spell before ++ (shape.wrap g ++ shape.spell after) = l ++ m) :
    (∃ rest, l = shape.spell before ++ (shape.wrap g ++ rest) ∧ shape.spell after = rest ++ m) ∨
      shape.Crosses l m g ∨
      ∃ u, shape.spell before = l ++ u ∧ m = u ++ (shape.wrap g ++ shape.spell after) := by
  rcases Nat.lt_or_ge (shape.spell before).length l.length with hbegins | hbegins
  · rcases Nat.lt_or_ge l.length ((shape.spell before).length + (shape.wrap g).length)
      with hends | hends
    · refine .inr (.inl ⟨before, after, ?_, hbegins, hends⟩)
      rw [← h]
      simpa [IsCut] using hcut
    · obtain ⟨rest, hl, hafter⟩ := exists_of_append_eq (h.symm.trans (List.append_assoc ..).symm)
        (by simpa using hends)
      exact .inl ⟨rest, by simpa using hl, hafter⟩
  · exact .inr (.inr (exists_of_append_eq h hbegins))

theorem not_crosses_of_isCut (h : shape.IsCut (ps ++ qs)) :
    ¬ shape.Crosses (shape.spell ps) (shape.spell qs) g := by
  rintro ⟨before, after, hcut, hbegins, hends⟩
  have hpieces : before ++ .token g :: after = ps ++ qs := by
    rw [← hcut, ← spell_append]
    exact h
  rcases List.append_eq_append_iff.mp hpieces with ⟨more, rfl, htoken⟩ | ⟨more, rfl, -⟩
  · cases more with
    | nil => simp at hbegins
    | cons p more =>
      obtain ⟨rfl, -⟩ := List.cons.inj htoken
      rw [spell_append, spell_cons, text_token, List.length_append, List.length_append] at hends
      omega
  · rw [spell_append, List.length_append] at hbegins
    omega

/-! ## Filled texts -/

/-- What a piece is replaced by. -/
def filling (shape : TokenShape) (substitute : List Char → Option (List Char)) :
    Piece → List Char
  | .char c => [c]
  | .token g => (substitute g).getD (shape.wrap g)

/-- The pieces that come in the place of a piece. -/
def refined (shape : TokenShape) (substitute : List Char → Option (List Char)) :
    Piece → List Piece
  | .char c => [.char c]
  | .token g =>
    match substitute g with
    | some v => shape.cut v
    | none => [.token g]

/-- In the text that begins with `left` and goes on with the fillings of the pieces, a token that
encloses `g` lies across a border of a substitute. -/
def JoinsAfter (shape : TokenShape) (substitute : List Char → Option (List Char))
    (left : List Char) (ps : List Piece) (g : List Char) : Prop :=
  ∃ before t after v, ps = before ++ .token t :: after ∧ substitute t = some v ∧
    let filled := left ++ before.flatMap (shape.filling substitute)
    let rest := after.flatMap (shape.filling substitute)
    (shape.Crosses filled (v ++ rest) g ∨ shape.Crosses (filled ++ v) rest g)

/-- In the filled text, a token that encloses `g` lies across a border of a substitute. -/
def Joins (shape : TokenShape) (substitute : List Char → Option (List Char)) (s g : List Char) :
    Prop :=
  shape.JoinsAfter substitute [] (shape.cut s) g

theorem fill_eq (substitute : List Char → Option (List Char)) (s : List Char) :
    shape.fill substitute s = (shape.cut s).flatMap (shape.filling substitute) := by
  unfold fill
  congr

theorem spell_refined (substitute : List Char → Option (List Char)) (ps : List Piece) :
    shape.spell (ps.flatMap (shape.refined substitute)) =
      ps.flatMap (shape.filling substitute) := by
  induction ps with
  | nil => rfl
  | cons p ps ih =>
    have hp : shape.spell (shape.refined substitute p) = shape.filling substitute p := by
      cases p with
      | char c => rfl
      | token g => cases hg : substitute g <;> simp [refined, filling, hg]
    rw [List.flatMap_cons, spell_append, hp, ih, List.flatMap_cons]

theorem JoinsAfter.cons {left : List Char}
    (h : shape.JoinsAfter substitute (left ++ shape.filling substitute p) ps g) :
    shape.JoinsAfter substitute left (p :: ps) g := by
  obtain ⟨before, t, after, v, rfl, hv, hcrosses⟩ := h
  refine ⟨p :: before, t, after, v, rfl, hv, ?_⟩
  simpa only [List.flatMap_cons, List.append_assoc] using hcrosses

/-- How a token of a filled text has come about: it is a token of the text that has no substitute,
or it lies within a substitute, or across a border of one. -/
inductive Origin (shape : TokenShape) (substitute : List Char → Option (List Char))
    (left : List Char) (ps : List Piece) (g : List Char) : Prop
  | stays (hmem : .token g ∈ ps) (hnone : substitute g = none)
  | comes {t v : List Char} (hmem : .token t ∈ ps) (hv : substitute t = some v)
      (hwithin : shape.wrap g <:+: v)
  | arises (hjoins : shape.JoinsAfter substitute left ps g)

theorem Origin.cons {left : List Char}
    (h : shape.Origin substitute (left ++ shape.filling substitute p) ps g) :
    shape.Origin substitute left (p :: ps) g := by
  cases h with
  | stays hmem hnone => exact .stays (List.mem_cons_of_mem _ hmem) hnone
  | comes hmem hv hwithin => exact .comes (List.mem_cons_of_mem _ hmem) hv hwithin
  | arises hjoins => exact .arises hjoins.cons

section Filled

variable (hshape : shape.Definite)
include hshape

/-- Every token of a text that is filled from pieces has its origin in them, or is one of the pieces
in `kept`, which stand for themselves before the others. -/
theorem origin_of_filling {before after kept : List Piece} {x : List Char}
    (hcut : shape.IsCut (before ++ .token g :: after)) (hkept : shape.IsCut (kept ++ ps))
    (hbefore : shape.spell before = l ++ x)
    (h : shape.spell kept ++ ps.flatMap (shape.filling substitute) =
      x ++ (shape.wrap g ++ shape.spell after)) :
    .token g ∈ kept ∨ shape.Origin substitute (l ++ shape.spell kept) ps g := by
  induction ps generalizing l kept x with
  | nil =>
    have hafter : shape.spell after = shape.spell after ++ [] := (List.append_nil _).symm
    refine .inl (mem_of_within hshape hcut (IsCut.left hshape hkept) hbefore hafter ?_)
    simpa using h
  | cons p ps ih =>
    have hpieces : shape.IsCut ((kept ++ [p]) ++ ps) := by simpa using hkept
    cases p with
    | char c =>
      have hlater := ih hpieces hbefore (by simpa [filling] using h)
      refine hlater.imp (fun hmem => by simpa using hmem) fun horigin => Origin.cons ?_
      simpa [filling] using horigin
    | token t =>
      cases ht : substitute t with
      | none =>
        have hlater := ih hpieces hbefore (by simpa [filling, ht] using h)
        rcases hlater with hmem | horigin
        · rcases List.mem_append.mp hmem with hmem | hmem
          · exact .inl hmem
          · obtain rfl : g = t := by simpa using hmem
            exact .inr (.stays List.mem_cons_self ht)
        · refine .inr (Origin.cons ?_)
          simpa [filling, ht] using horigin
      | some v =>
        have htext : shape.spell before ++ (shape.wrap g ++ shape.spell after) =
            l ++ shape.spell kept ++ (v ++ ps.flatMap (shape.filling substitute)) := by
          simpa [hbefore, filling, ht] using congrArg (l ++ ·) h.symm
        -- the token ends in the kept pieces, or crosses the border before `v`, or begins after it
        rcases within_or_crosses hcut htext with ⟨rest, hrest, hafter⟩ | hcrosses | ⟨u, hu, hv⟩
        · refine .inl (mem_of_within hshape hcut (IsCut.left hshape hkept) hbefore hafter ?_)
          simpa [hbefore] using hrest
        · refine .inr (.arises ⟨[], t, ps, v, rfl, ht, .inl ?_⟩)
          simpa using hcrosses
        -- the token ends in `v`, or crosses the border behind `v`, or begins after it
        have htext' : shape.spell before ++ (shape.wrap g ++ shape.spell after) =
            l ++ shape.spell kept ++ v ++ ps.flatMap (shape.filling substitute) := by
          rw [htext, List.append_assoc (l ++ shape.spell kept)]
        rcases within_or_crosses hcut htext' with ⟨rest, hrest, -⟩ | hcrosses | ⟨w, hw, hlater⟩
        · refine .inr (.comes List.mem_cons_self ht ⟨u, rest, ?_⟩)
          simpa [hu] using hrest.symm
        · refine .inr (.arises ⟨[], t, ps, v, rfl, ht, .inr ?_⟩)
          simpa using hcrosses
        · have hps : shape.IsCut ([] ++ ps) := IsCut.right hshape hpieces
          refine .inr (Origin.cons ?_)
          simpa [filling, ht] using (ih hps hw hlater).resolve_left List.not_mem_nil

/-- Every token of a filled text is one of the text that has no substitute, or lies within a
substitute, or across a border of one. -/
theorem cases_of_mem_fill (h : g ∈ shape.tokens (shape.fill substitute s)) :
    (g ∈ shape.tokens s ∧ substitute g = none) ∨
      (∃ t ∈ shape.tokens s, ∃ v, substitute t = some v ∧ shape.wrap g <:+: v) ∨
      shape.Joins substitute s g := by
  obtain ⟨before, after, hfilled⟩ := List.append_of_mem (mem_tokens.mp h)
  have hcut : shape.IsCut (before ++ .token g :: after) := hfilled ▸ isCut_cut _
  have htext : shape.spell [] ++ (shape.cut s).flatMap (shape.filling substitute) =
      shape.spell before ++ (shape.wrap g ++ shape.spell after) := by
    rw [spell_nil, List.nil_append, ← fill_eq, ← spell_cut (shape.fill substitute s), hfilled,
      spell_append]
    rfl
  have horigin : Piece.token g ∈ [] ∨ shape.Origin substitute [] (shape.cut s) g :=
    origin_of_filling hshape hcut (isCut_cut s) (List.nil_append _).symm htext
  cases horigin.resolve_left List.not_mem_nil with
  | stays hmem hnone => exact .inl ⟨mem_tokens.mpr hmem, hnone⟩
  | comes hmem hv hwithin => exact .inr (.inl ⟨_, mem_tokens.mpr hmem, _, hv, hwithin⟩)
  | arises hjoins => exact .inr (.inr hjoins)

end Filled

theorem tokens_ne_nil_of_occurs (hshape : shape.Definite) (hg : shape.Encloses g)
    (h : shape.wrap g <:+: s) : shape.tokens s ≠ [] := by
  obtain ⟨x, rest, rfl⟩ := h
  rw [List.append_assoc]
  induction x with
  | nil => rw [List.nil_append, tokens_eq, cut_wrap hshape hg]; simp [Piece.enclosed?]
  | cons c x ih =>
    rw [List.cons_append, tokens_eq, cut_cons]
    cases shape.token? (c :: (x ++ (shape.wrap g ++ rest))) with
    | none => simpa [tokens_eq, Piece.enclosed?] using ih
    | some t => simp [Piece.enclosed?]

theorem fill_eq_self (h : ∀ g ∈ shape.tokens s, substitute g = none) :
    shape.fill substitute s = s := by
  have hpieces : ∀ p ∈ shape.cut s, shape.filling substitute p = shape.text p := by
    intro p hp
    cases p with
    | char c => rfl
    | token g => simp [filling, text, h g (mem_tokens.mpr hp)]
  rw [fill_eq, List.flatMap_congr hpieces]
  exact shape.flatten_cut s

end TokenShape

end ChatFlow.Text
