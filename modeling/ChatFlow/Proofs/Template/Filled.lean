import ChatFlow.Proofs.Text.Token
import ChatFlow.Template.Basic

/-!
# Texts whose placeholders are filled

The placeholders that are left in a filled text should be those that have no value, and to fill the
text once more should change nothing. But values stand next to the text around them and to each
other, so a brace at the end of a value, or two parts of the text that an empty value lets come
together, can make up a placeholder that was not there.

`interpolate_interpolate` says that nothing else can happen: if no value holds a placeholder, all
that filling the text once more can replace are placeholders that lie across a border of a value. A
value is `Seamless` if this is impossible next to it, whatever the text; a value without braces that
is not empty is seamless, and then exactly the placeholders without a value are left
(`unresolved_placeholders_remain`).
-/

namespace ChatFlow.Template

open Text TokenShape

variable {s v g rest : List Char} {c : Char} {ps : List Piece} {text : String} {vars : Fields}
  {substitute : List Char → Option (List Char)}

/-! ## The shape of placeholders -/

theorem placeholder_definite : placeholder.Definite where
  opening_ne := by decide
  closing_ne := by decide
  opening_apart := by simp [placeholder]
  inner_apart := by simp [placeholder]

theorem encloses_iff : placeholder.Encloses g ↔ g ≠ [] ∧ '\x7d' ∉ g := by
  simp only [Encloses, placeholder, decide_eq_true_eq]
  refine and_congr_right fun _ => ⟨fun h hmem => h _ hmem rfl, ?_⟩
  rintro h c hc rfl
  exact h hc

theorem token?_braces (hg : g ≠ []) (hclosing : '\x7d' ∉ g) (rest : List Char) :
    placeholder.token? ('\x7b' :: '\x7b' :: (g ++ '\x7d' :: '\x7d' :: rest)) = some g :=
  (token?_eq_some_iff placeholder_definite).mpr
    ⟨encloses_iff.mpr ⟨hg, hclosing⟩, rest, by simp [wrap, placeholder]⟩

theorem token?_eq_none (h : ∀ r, s ≠ '\x7b' :: '\x7b' :: r) : placeholder.token? s = none := by
  rw [Option.eq_none_iff_forall_ne_some]
  intro g hg
  obtain ⟨-, rest, hs⟩ := placeholder.token?_eq_some hg
  exact h _ hs

/-! ## Values that join nothing -/

/-- What can stand in any place of a text without becoming a part of a placeholder: it is not empty,
does not begin with a closing or end with an opening brace, and holds no two opening braces in a
row. -/
structure Seamless (v : List Char) : Prop where
  ne_nil : v ≠ []
  head_ne : v.head? ≠ some '\x7d'
  last_ne : v.getLast? ≠ some '\x7b'
  apart : ¬ ['\x7b', '\x7b'] <:+: v

theorem seamless_of_no_braces (hv : v ≠ []) (hopening : '\x7b' ∉ v) (hclosing : '\x7d' ∉ v) :
    Seamless v where
  ne_nil := hv
  head_ne h := hclosing (List.mem_of_mem_head? h)
  last_ne h := hopening (List.mem_of_mem_getLast? h)
  apart h := hopening (h.subset (by simp))

theorem cut_append_of_apart (hlast : v.getLast? ≠ some '\x7b') (hapart : ¬ ['\x7b', '\x7b'] <:+: v)
    (s : List Char) : placeholder.cut (v ++ s) = v.map .char ++ placeholder.cut s := by
  induction v with
  | nil => rfl
  | cons c r ih =>
    have hnone : placeholder.token? (c :: (r ++ s)) = none := by
      refine token?_eq_none fun r' hr' => ?_
      obtain ⟨rfl, hr⟩ := List.cons.inj hr'
      cases r with
      | nil => exact hlast rfl
      | cons d r =>
        obtain ⟨rfl, -⟩ := List.cons.inj hr
        exact hapart ⟨[], r, rfl⟩
    have hrest : r.getLast? ≠ some '\x7b' := by
      intro h
      refine hlast ?_
      rw [List.getLast?_cons, h]
      rfl
    have hlater : ¬ ['\x7b', '\x7b'] <:+: r := fun h =>
      hapart (h.trans (List.suffix_cons c r).isInfix)
    rw [List.cons_append, cut_char hnone, ih hrest hlater]
    rfl

theorem Seamless.cut_eq (hv : Seamless v) : placeholder.cut v = v.map .char := by
  simpa using cut_append_of_apart hv.last_ne hv.apart []

theorem Seamless.cut_append (hv : Seamless v) (s : List Char) :
    placeholder.cut (v ++ s) = placeholder.cut v ++ placeholder.cut s := by
  rw [hv.cut_eq, cut_append_of_apart hv.last_ne hv.apart]

theorem Seamless.tokens_eq_nil (hv : Seamless v) : placeholder.tokens v = [] := by
  rw [tokens_eq, hv.cut_eq, List.filterMap_map]
  simp [Function.comp_def, Piece.enclosed?]

/-- All substitutes of the tokens among pieces are seamless. -/
def AllSeamless (substitute : List Char → Option (List Char)) (ps : List Piece) : Prop :=
  ∀ g v, .token g ∈ ps → substitute g = some v → Seamless v

theorem AllSeamless.tail {p : Piece} (h : AllSeamless substitute (p :: ps)) :
    AllSeamless substitute ps :=
  fun g v hmem => h g v (List.mem_cons_of_mem _ hmem)

theorem exists_spell_of_closing (hvalues : AllSeamless substitute ps) {r : List Char}
    (h : ps.flatMap (placeholder.filling substitute) = '\x7d' :: r) :
    ∃ r', placeholder.spell ps = '\x7d' :: r' := by
  cases ps with
  | nil => simp at h
  | cons p ps =>
    cases p with
    | char c =>
      obtain ⟨rfl, -⟩ := List.cons.inj h
      exact ⟨_, rfl⟩
    | token g =>
      cases hg : substitute g with
      | none => simp [filling, hg, wrap, placeholder] at h
      | some v =>
        have hv := hvalues g v List.mem_cons_self hg
        simp only [List.flatMap_cons, filling, hg, Option.getD_some] at h
        obtain ⟨c, v', rfl⟩ := List.exists_cons_of_ne_nil hv.ne_nil
        obtain ⟨rfl, -⟩ := List.cons.inj h
        exact absurd rfl hv.head_ne

theorem exists_spell_of_run (hps : placeholder.IsCut ps) (hvalues : AllSeamless substitute ps)
    (hg : '\x7d' ∉ g)
    (h : ps.flatMap (placeholder.filling substitute) = g ++ '\x7d' :: '\x7d' :: rest) :
    ∃ g' rest', placeholder.spell ps = g' ++ '\x7d' :: '\x7d' :: rest' ∧ '\x7d' ∉ g' ∧
      (g ≠ [] → g' ≠ []) := by
  induction ps generalizing g with
  | nil => simp at h
  | cons p ps ih =>
    cases p with
    | token t =>
      obtain ⟨-, ht⟩ := encloses_iff.mp ((isCut_token placeholder_definite).mp hps).1
      refine ⟨'\x7b' :: '\x7b' :: t, placeholder.spell ps, ?_, by simpa using ht, by simp⟩
      simp [TokenShape.text, wrap, placeholder]
    | char c =>
      cases g with
      | nil =>
        obtain ⟨rfl, hrest⟩ := List.cons.inj h
        obtain ⟨r', hr'⟩ := exists_spell_of_closing hvalues.tail hrest
        exact ⟨[], r', by simp [TokenShape.text, hr'], by simp, by simp⟩
      | cons d g =>
        obtain ⟨rfl, hrest⟩ := List.cons.inj h
        obtain ⟨hc, hg⟩ := not_or.mp (mt List.mem_cons.mpr hg)
        obtain ⟨g', rest', hspell, hg', -⟩ := ih (isCut_char.mp hps).2 hvalues.tail hg hrest
        refine ⟨c :: g', rest', by simp [TokenShape.text, hspell], ?_, by simp⟩
        exact mt List.mem_cons.mp (not_or.mpr ⟨hc, hg'⟩)

theorem token?_filling (hps : placeholder.IsCut (.char c :: ps))
    (hvalues : AllSeamless substitute ps) :
    placeholder.token? (c :: ps.flatMap (placeholder.filling substitute)) = none := by
  obtain ⟨hnone, hcut⟩ := isCut_char.mp hps
  rw [Option.eq_none_iff_forall_ne_some]
  intro g htoken
  obtain ⟨hencloses, rest, hs⟩ := (token?_eq_some_iff placeholder_definite).mp htoken
  obtain ⟨hg, hclosing⟩ := encloses_iff.mp hencloses
  have hbraces : c :: ps.flatMap (placeholder.filling substitute) =
      '\x7b' :: '\x7b' :: (g ++ '\x7d' :: '\x7d' :: rest) := by
    rw [hs]
    simp [wrap, placeholder]
  obtain ⟨hc, hsecond⟩ := List.cons.inj hbraces
  subst hc
  -- the second brace is one of the text, and then so are the closing ones
  cases ps with
  | nil => simp at hsecond
  | cons p ps =>
    cases p with
    | token t =>
      obtain ⟨-, ht⟩ := encloses_iff.mp ((isCut_token placeholder_definite).mp hcut).1
      have hlonger : '\x7d' ∉ '\x7b' :: t := by simpa using ht
      have hfront := token?_braces (List.cons_ne_nil _ _) hlonger (placeholder.spell ps)
      have hspell : '\x7b' :: placeholder.spell (.token t :: ps) =
          '\x7b' :: '\x7b' :: (('\x7b' :: t) ++ '\x7d' :: '\x7d' :: placeholder.spell ps) := by
        simp [TokenShape.text, wrap, placeholder]
      rw [← hspell, hnone] at hfront
      simp at hfront
    | char d =>
      obtain ⟨hd, hrun⟩ := List.cons.inj hsecond
      subst hd
      obtain ⟨g', rest', hspell, hg', hne⟩ := exists_spell_of_run (isCut_char.mp hcut).2
        hvalues.tail hclosing hrun
      have hfront := token?_braces (hne hg) hg' rest'
      rw [← hspell] at hfront
      exact absurd (hfront.symm.trans hnone) (by simp)

theorem cut_filling_seamless (hps : placeholder.IsCut ps) (hvalues : AllSeamless substitute ps) :
    placeholder.cut (ps.flatMap (placeholder.filling substitute)) =
      ps.flatMap (placeholder.refined substitute) := by
  induction ps with
  | nil => rfl
  | cons p ps ih =>
    cases p with
    | char c =>
      show placeholder.cut (c :: ps.flatMap (placeholder.filling substitute)) = _
      rw [cut_char (token?_filling hps hvalues.tail), ih (isCut_char.mp hps).2 hvalues.tail]
      rfl
    | token g =>
      obtain ⟨hg, hrest⟩ := (isCut_token placeholder_definite).mp hps
      cases hv : substitute g with
      | none =>
        simp only [List.flatMap_cons, filling, refined, hv, Option.getD_none]
        rw [cut_wrap placeholder_definite hg, ih hrest hvalues.tail]
        rfl
      | some v =>
        simp only [List.flatMap_cons, filling, refined, hv, Option.getD_some]
        rw [(hvalues g v List.mem_cons_self hv).cut_append, ih hrest hvalues.tail]

theorem not_joins_of_seamless (hvalues : AllSeamless substitute (placeholder.cut s)) :
    ¬ placeholder.Joins substitute s g := by
  rintro ⟨before, t, after, v, hpieces, hv, hcrosses⟩
  have hcut := cut_filling_seamless (isCut_cut s) hvalues
  have hbreak : (placeholder.cut s).flatMap (placeholder.refined substitute) =
      before.flatMap (placeholder.refined substitute) ++
        (placeholder.cut v ++ after.flatMap (placeholder.refined substitute)) := by
    simp [hpieces, refined, hv]
  have hisCut : placeholder.IsCut
      ((placeholder.cut s).flatMap (placeholder.refined substitute)) := by
    rwa [IsCut, spell_refined]
  rw [hbreak] at hisCut
  rw [List.nil_append] at hcrosses
  rcases hcrosses with hleft | hright
  · refine not_crosses_of_isCut (g := g) hisCut ?_
    rwa [spell_append, spell_refined, spell_refined, spell_cut]
  · rw [← List.append_assoc] at hisCut
    refine not_crosses_of_isCut (g := g) hisCut ?_
    rwa [spell_append, spell_refined, spell_refined, spell_cut]

theorem filterMap_refined (hvalues : AllSeamless substitute ps) :
    (ps.flatMap (placeholder.refined substitute)).filterMap Piece.enclosed? =
      (ps.filterMap Piece.enclosed?).filter fun g => (substitute g).isNone := by
  induction ps with
  | nil => rfl
  | cons p ps ih =>
    rw [List.flatMap_cons, List.filterMap_append, ih hvalues.tail]
    cases p with
    | char c => rfl
    | token g =>
      cases hv : substitute g with
      | none => simp [refined, hv, Piece.enclosed?]
      | some v =>
        have hempty := (hvalues g v List.mem_cons_self hv).tokens_eq_nil
        rw [tokens_eq] at hempty
        simp [refined, hv, hempty, Piece.enclosed?]

/-! ## Interpolated texts -/

/-- What is put in the place of a placeholder. -/
def substituteOf (vars : Fields) (g : List Char) : Option (List Char) :=
  (resolve vars (nameOf g)).map (·.format.toList)

theorem toList_interpolate (text : String) (vars : Fields) :
    (interpolate text vars).toList = placeholder.fill (substituteOf vars) text.toList :=
  String.toList_ofList

theorem substituteOf_eq_some :
    substituteOf vars g = some v ↔
      ∃ value, resolve vars (nameOf g) = some value ∧ value.format.toList = v :=
  Option.map_eq_some_iff

@[simp] theorem substituteOf_eq_none :
    substituteOf vars g = none ↔ resolve vars (nameOf g) = none :=
  Option.map_eq_none_iff

theorem forall_substitutes {P : List Char → Prop}
    (h : ∀ name ∈ names text, ∀ value, resolve vars name = some value → P value.format.toList) :
    ∀ g ∈ placeholder.tokens text.toList, ∀ v, substituteOf vars g = some v → P v := by
  intro g hg v hv
  obtain ⟨value, hvalue, rfl⟩ := substituteOf_eq_some.mp hv
  exact h (nameOf g) (List.mem_map_of_mem hg) value hvalue

/-- If no value holds a placeholder, a placeholder of the filled text that has a value lies across a
border of a value. -/
theorem joins_of_mem_interpolate
    (hvalues : ∀ name ∈ names text, ∀ value, resolve vars name = some value →
      names value.format = [])
    (hg : g ∈ placeholder.tokens (interpolate text vars).toList)
    (hsome : resolve vars (nameOf g) ≠ none) :
    placeholder.Joins (substituteOf vars) text.toList g := by
  rw [toList_interpolate] at hg
  have hencloses : placeholder.Encloses g := by
    obtain ⟨before, after, hcut⟩ := List.append_of_mem (mem_tokens.mp hg)
    have hisCut : placeholder.IsCut (before ++ .token g :: after) := hcut ▸ isCut_cut _
    exact ((isCut_token placeholder_definite).mp (IsCut.right placeholder_definite hisCut)).1
  have hempty := forall_substitutes (P := fun v => placeholder.tokens v = [])
    fun name hname value hvalue => List.map_eq_nil_iff.mp (hvalues name hname value hvalue)
  rcases cases_of_mem_fill placeholder_definite hg with
    ⟨-, hnone⟩ | ⟨t, ht, v, hv, hwithin⟩ | hjoins
  · exact absurd (substituteOf_eq_none.mp hnone) hsome
  · exact absurd (hempty t ht v hv) (tokens_ne_nil_of_occurs placeholder_definite hencloses hwithin)
  · exact hjoins

theorem allSeamless_of_values (hvalues : ∀ name ∈ names text, ∀ value,
      resolve vars name = some value → Seamless value.format.toList) :
    AllSeamless (substituteOf vars) (placeholder.cut text.toList) := fun g v hg hv =>
  forall_substitutes hvalues g (mem_tokens.mpr hg) v hv

/-! ## Results -/

/-- If every placeholder of a text that has a value is filled with a text that is not empty and has
no braces, then the placeholders of the filled text are exactly those of the text that have no
value, word for word, in their order and as often as they stood there. -/
theorem unresolved_placeholders_remain (text : String) (vars : Fields)
    (hvalues : ∀ name ∈ names text, ∀ value, resolve vars name = some value →
      value.format ≠ "" ∧ '\x7b' ∉ value.format.toList ∧ '\x7d' ∉ value.format.toList) :
    names (interpolate text vars) =
        (names text).filter (fun name => (resolve vars name).isNone) ∧
      placeholder.tokens (interpolate text vars).toList =
        (placeholder.tokens text.toList).filter fun g => (resolve vars (nameOf g)).isNone := by
  have hseamless : AllSeamless (substituteOf vars) (placeholder.cut text.toList) := by
    refine allSeamless_of_values fun name hname value hvalue => ?_
    obtain ⟨hne, hopening, hclosing⟩ := hvalues name hname value hvalue
    exact seamless_of_no_braces (by simpa using hne) hopening hclosing
  have htokens : placeholder.tokens (interpolate text vars).toList =
      (placeholder.tokens text.toList).filter fun g => (resolve vars (nameOf g)).isNone := by
    rw [toList_interpolate, tokens_eq, fill_eq, cut_filling_seamless (isCut_cut _) hseamless,
      filterMap_refined hseamless, ← tokens_eq]
    simp only [substituteOf, Option.isNone_map]
  refine ⟨?_, htokens⟩
  rw [names, htokens, names, List.filter_map]
  rfl

/-- The name is filled in, and the other placeholder is left. -/
theorem open_placeholder_remains :
    names (interpolate "Hi \x7b\x7b name \x7d\x7d: \x7b\x7bother\x7d\x7d" [("name", .str "Ana")]) =
        ["other"] ∧
      placeholder.tokens (interpolate "Hi \x7b\x7b name \x7d\x7d: \x7b\x7bother\x7d\x7d"
        [("name", .str "Ana")]).toList = ["other".toList] := by
  have hnames : names "Hi \x7b\x7b name \x7d\x7d: \x7b\x7bother\x7d\x7d" = ["name", "other"] := by
    decide
  obtain ⟨hleft, htokens⟩ := unresolved_placeholders_remain
    "Hi \x7b\x7b name \x7d\x7d: \x7b\x7bother\x7d\x7d" [("name", .str "Ana")] (by
      simp only [hnames, List.mem_cons, List.not_mem_nil, or_false]
      rintro name (rfl | rfl) value hvalue
      · cases hvalue
        decide
      · cases hvalue)
  rw [hleft, htokens]
  decide

/-- If no value in a text holds a placeholder, filling the text once more replaces at most the
placeholders that lie across a border of a value, and so changes nothing if none of these has a
value. There are none at all, whatever the text, if no value is empty, begins with a closing brace,
ends with an opening one or holds two of these in a row. -/
theorem interpolate_interpolate (text : String) (vars : Fields)
    (hvalues : ∀ name ∈ names text, ∀ value, resolve vars name = some value →
      names value.format = []) :
    (∀ g ∈ placeholder.tokens (interpolate text vars).toList, resolve vars (nameOf g) ≠ none →
        placeholder.Joins (substituteOf vars) text.toList g) ∧
      ((∀ g, placeholder.Joins (substituteOf vars) text.toList g → resolve vars (nameOf g) = none) →
        interpolate (interpolate text vars) vars = interpolate text vars) ∧
      ((∀ name ∈ names text, ∀ value, resolve vars name = some value →
          Seamless value.format.toList) →
        ∀ g, ¬ placeholder.Joins (substituteOf vars) text.toList g) := by
  have hjoins : ∀ g ∈ placeholder.tokens (interpolate text vars).toList,
      resolve vars (nameOf g) ≠ none → placeholder.Joins (substituteOf vars) text.toList g :=
    fun g => joins_of_mem_interpolate hvalues
  refine ⟨hjoins, fun hnone => ?_, fun hseamless g =>
    not_joins_of_seamless (allSeamless_of_values hseamless)⟩
  rw [← String.toList_inj, toList_interpolate (interpolate text vars)]
  refine fill_eq_self fun g hg => substituteOf_eq_none.mpr ?_
  by_contra hsome
  exact hsome (hnone g (hjoins g hg hsome))

/-- A value with single braces in it leaves the text stable. -/
theorem braced_name_is_stable :
    interpolate (interpolate "Hi \x7b\x7b name \x7d\x7d: \x7b\x7bother\x7d\x7d"
        [("name", .str "A\x7bn\x7da")]) [("name", .str "A\x7bn\x7da")] =
      interpolate "Hi \x7b\x7b name \x7d\x7d: \x7b\x7bother\x7d\x7d"
        [("name", .str "A\x7bn\x7da")] := by
  have hnames : names "Hi \x7b\x7b name \x7d\x7d: \x7b\x7bother\x7d\x7d" = ["name", "other"] := by
    decide
  have hvalue : ∀ name ∈ ["name", "other"], ∀ value,
      resolve [("name", .str "A\x7bn\x7da")] name = some value → value = .str "A\x7bn\x7da" := by
    simp only [List.mem_cons, List.not_mem_nil, or_false]
    rintro name (rfl | rfl) value hvalue
    · exact (Option.some.inj hvalue).symm
    · cases hvalue
  obtain ⟨-, hstable, hapart⟩ := interpolate_interpolate
    "Hi \x7b\x7b name \x7d\x7d: \x7b\x7bother\x7d\x7d" [("name", .str "A\x7bn\x7da")] (by
      intro name hname value hv
      rw [hvalue name (hnames ▸ hname) value hv]
      decide)
  refine hstable fun g hjoins => absurd hjoins (hapart ?_ g)
  intro name hname value hv
  rw [hvalue name (hnames ▸ hname) value hv]
  exact ⟨by decide, by decide, by decide, by decide⟩

/-- An empty value lets the braces around it come together: the first pass leaves a placeholder that
was not there, and the second one fills it. -/
theorem empty_value_joins_braces :
    (∀ name ∈ names "\x7b\x7bb\x7d\x7b\x7bx\x7d\x7d\x7d", ∀ value,
        resolve [("x", .null), ("b", .str "Ana")] name = some value → names value.format = []) ∧
      interpolate "\x7b\x7bb\x7d\x7b\x7bx\x7d\x7d\x7d" [("x", .null), ("b", .str "Ana")] =
        "\x7b\x7bb\x7d\x7d" ∧
      interpolate (interpolate "\x7b\x7bb\x7d\x7b\x7bx\x7d\x7d\x7d"
        [("x", .null), ("b", .str "Ana")]) [("x", .null), ("b", .str "Ana")] = "Ana" := by
  refine ⟨?_, by decide, by decide⟩
  have hnames : names "\x7b\x7bb\x7d\x7b\x7bx\x7d\x7d\x7d" = ["x"] := by decide
  intro name hname value hvalue
  obtain rfl : name = "x" := by simpa [hnames] using hname
  cases hvalue
  decide

end ChatFlow.Template
