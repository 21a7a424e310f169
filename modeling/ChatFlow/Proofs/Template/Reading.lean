import ChatFlow.Proofs.Template.Filled
import ChatFlow.Proofs.Text.Scan

/-!
# Reading a text at its placeholders

The grammar of placeholders, said without the scanner: a placeholder is a run that is not empty and
has no closing brace, between two opening and two closing braces. A `Reading` takes a text apart
into literals with placeholders between them, and is `Leftmost` if no placeholder begins before the
one that is read next.

`placeholders_read_leftmost` says that every text has exactly one leftmost reading, that the names
in the text are those of its placeholders, and that filling the text puts the values between the
same literals. The pieces that the scanner cuts a text into are single characters and tokens; the
characters between two tokens make up a literal (`ofPieces`), every reading comes from pieces in
this way, and it is leftmost just if they are the pieces of their text (`leftmost_ofPieces`).
-/

namespace ChatFlow.Template

open Text TokenShape

/-- What the braces of a placeholder can enclose. -/
def Enclosable (g : List Char) : Prop :=
  g ≠ [] ∧ '\x7d' ∉ g

/-- Two opening braces, what they enclose, two closing braces. -/
def braced (g : List Char) : List Char :=
  '\x7b' :: '\x7b' :: (g ++ ['\x7d', '\x7d'])

/-- A placeholder begins at the front of a text. -/
def Begins (s : List Char) : Prop :=
  ∃ g rest, Enclosable g ∧ s = braced g ++ rest

/-- Literals with placeholders between them, which are given by what their braces enclose. -/
inductive Reading
  | last (literal : List Char)
  | next (literal enclosed : List Char) (rest : Reading)
  deriving DecidableEq

namespace Reading

variable {r : Reading} {ps : List Piece} {s : List Char} {c : Char}

/-- The literals as they are, with something in the place of every placeholder. -/
def fill (substitute : List Char → List Char) : Reading → List Char
  | last literal => literal
  | next literal g rest => literal ++ (substitute g ++ rest.fill substitute)

/-- What the placeholders enclose, in their order. -/
def enclosed : Reading → List (List Char)
  | last _ => []
  | next _ g rest => g :: rest.enclosed

/-- In what remains of the text, no placeholder begins before the one that is read next, and after
the last one none begins at all. -/
def Leftmost : Reading → Prop
  | last literal => ∀ i, ¬ Begins (literal.drop i)
  | next literal g rest =>
    (∀ i < literal.length, ¬ Begins ((literal ++ (braced g ++ rest.fill braced)).drop i)) ∧
      Enclosable g ∧ rest.Leftmost

/-! ## Characters in front of a reading -/

/-- The first literal with one character more at its front. -/
def cons (c : Char) : Reading → Reading
  | last literal => last (c :: literal)
  | next literal g rest => next (c :: literal) g rest

@[simp] theorem fill_cons (substitute : List Char → List Char) (c : Char) (r : Reading) :
    (r.cons c).fill substitute = c :: r.fill substitute := by
  cases r <;> rfl

@[simp] theorem enclosed_cons (c : Char) (r : Reading) : (r.cons c).enclosed = r.enclosed := by
  cases r <;> rfl

theorem leftmost_cons :
    (r.cons c).Leftmost ↔ ¬ Begins (c :: r.fill braced) ∧ r.Leftmost := by
  cases r with
  | last literal => exact Nat.and_forall_add_one.symm
  | next literal g rest =>
    simp only [cons, Leftmost, fill, List.length_cons, Nat.forall_lt_succ_left]
    exact and_assoc

/-! ## Readings and pieces -/

/-- The reading in which the characters between two tokens make up a literal. -/
def ofPieces : List Piece → Reading
  | [] => last []
  | .char c :: ps => (ofPieces ps).cons c
  | .token g :: ps => next [] g (ofPieces ps)

theorem exists_ofPieces_cons (h : ∃ ps, ofPieces ps = r) (c : Char) :
    ∃ ps, ofPieces ps = r.cons c := by
  obtain ⟨ps, rfl⟩ := h
  exact ⟨.char c :: ps, rfl⟩

theorem exists_ofPieces (r : Reading) : ∃ ps, ofPieces ps = r := by
  induction r with
  | last literal =>
    induction literal with
    | nil => exact ⟨[], rfl⟩
    | cons c literal ih => exact exists_ofPieces_cons ih c
  | next literal g rest ih =>
    induction literal with
    | nil =>
      obtain ⟨ps, rfl⟩ := ih
      exact ⟨.token g :: ps, rfl⟩
    | cons c literal ih => exact exists_ofPieces_cons ih c

theorem enclosed_ofPieces (ps : List Piece) :
    (ofPieces ps).enclosed = ps.filterMap Piece.enclosed? := by
  induction ps with
  | nil => rfl
  | cons p ps ih =>
    cases p with
    | char c => exact (enclosed_cons c _).trans ih
    | token g => exact congrArg (g :: ·) ih

theorem fill_ofPieces {substitute : List Char → List Char} {f : Piece → List Char}
    (hchar : ∀ c, f (.char c) = [c]) (htoken : ∀ g, f (.token g) = substitute g)
    (ps : List Piece) : (ofPieces ps).fill substitute = ps.flatMap f := by
  induction ps with
  | nil => rfl
  | cons p ps ih =>
    rw [List.flatMap_cons, ← ih]
    cases p with
    | char c =>
      rw [hchar]
      exact fill_cons substitute c _
    | token g =>
      rw [htoken]
      rfl

theorem wrap_eq_braced (g : List Char) : placeholder.wrap g = braced g := by
  simp [wrap, placeholder, braced]

theorem fill_braced_ofPieces (ps : List Piece) :
    (ofPieces ps).fill braced = placeholder.spell ps :=
  fill_ofPieces text_char wrap_eq_braced ps

theorem token?_eq_none_iff_not_begins : placeholder.token? s = none ↔ ¬ Begins s := by
  simp only [token?_eq_none_iff placeholder_definite, encloses_iff, wrap_eq_braced, Begins,
    Enclosable, not_exists, not_and, ne_eq]

/-- A reading from pieces is leftmost if and only if these are the pieces of their text. -/
theorem leftmost_ofPieces : (ofPieces ps).Leftmost ↔ placeholder.IsCut ps := by
  induction ps with
  | nil =>
    refine iff_of_true (fun i => ?_) isCut_nil
    rw [List.drop_nil, ← token?_eq_none_iff_not_begins]
    rfl
  | cons p ps ih =>
    cases p with
    | char c =>
      rw [isCut_char, ← ih, token?_eq_none_iff_not_begins, ← fill_braced_ofPieces]
      exact leftmost_cons
    | token g =>
      rw [isCut_token placeholder_definite, ← ih, encloses_iff]
      exact and_iff_right fun i hi => absurd hi (Nat.not_lt_zero i)

/-- The reading of a text at the tokens that the scanner finds. -/
def read (s : List Char) : Reading :=
  ofPieces (placeholder.cut s)

theorem leftmost_iff_eq_read : r.Leftmost ∧ r.fill braced = s ↔ r = read s := by
  constructor
  · rintro ⟨hleftmost, rfl⟩
    -- the pieces that the reading comes from can only be those that its text is cut into
    obtain ⟨ps, rfl⟩ := exists_ofPieces r
    rw [read, fill_braced_ofPieces, leftmost_ofPieces.mp hleftmost]
  · rintro rfl
    refine ⟨leftmost_ofPieces.mpr (isCut_cut s), ?_⟩
    rw [read, fill_braced_ofPieces, spell_cut]

end Reading

/-! ## Result -/

/-- What stands in the place of a placeholder in the filled text: the value of the trimmed name, or
the placeholder itself where there is none. -/
def shown (vars : Fields) (g : List Char) : List Char :=
  match resolve vars (trim (String.ofList g)) with
  | some v => v.format.toList
  | none => braced g

theorem filling_token (vars : Fields) (g : List Char) :
    placeholder.filling (substituteOf vars) (.token g) = shown vars g := by
  show (substituteOf vars g).getD (placeholder.wrap g) = _
  rw [Reading.wrap_eq_braced]
  unfold substituteOf nameOf shown
  cases resolve vars (trim (String.ofList g)) <;> rfl

/-- Every text has exactly one leftmost reading. The names in the text are those of its
placeholders, trimmed, and the filled text has the same literals with what is shown for each
placeholder between them; where no name has a value this is the text. -/
theorem placeholders_read_leftmost (text : String) :
    ∃ reading : Reading,
      (∀ r : Reading, r.Leftmost ∧ r.fill braced = text.toList ↔ r = reading) ∧
      names text = reading.enclosed.map (fun g => trim (String.ofList g)) ∧
      (∀ vars, (interpolate text vars).toList = reading.fill (shown vars)) ∧
      ∀ vars, (∀ name ∈ names text, resolve vars name = none) → interpolate text vars = text := by
  refine ⟨Reading.read text.toList, fun r => Reading.leftmost_iff_eq_read, ?_, fun vars => ?_,
    fun vars hnone => ?_⟩
  · rw [Reading.read, Reading.enclosed_ofPieces, ← tokens_eq]
    rfl
  · rw [toList_interpolate, fill_eq]
    exact (Reading.fill_ofPieces (fun _ => rfl) (filling_token vars) _).symm
  · rw [← String.toList_inj, toList_interpolate]
    refine fill_eq_self fun g hg => substituteOf_eq_none.mpr ?_
    exact hnone (nameOf g) (List.mem_map_of_mem hg)

/-- A pair of braces with nothing between them stays literal, of three opening braces the last is
enclosed, and so are braces that are opened before another placeholder. -/
example : Reading.read "\x7b\x7b\x7d\x7d\x7b\x7b\x7ba\x7d\x7d \x7b\x7bb \x7b\x7bc\x7d\x7d".toList =
    .next "\x7b\x7b\x7d\x7d".toList "\x7ba".toList
      (.next " ".toList "b \x7b\x7bc".toList (.last [])) := by
  decide

end ChatFlow.Template
