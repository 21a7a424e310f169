import ChatFlow.Proofs.Text.Scan
import ChatFlow.Settings.Environment

/-!
# Values with environment variables put in

`Expands` relates a value to what it becomes: the same value but for its texts, and these filled
from left to right with the variables that are set. `expands_iff` says that `expand` makes this
value and that there is no other one. The lemmas at the end say what this does to the fields of an
object.
-/

namespace ChatFlow

open Text

namespace Environment

/-- The value of a variable that is set. -/
def valueOf (env : Variables) (name : List Char) : Option (List Char) :=
  (env.get? (String.ofList name)).map String.toList

theorem definite_reference : reference.Definite where
  opening_ne := List.cons_ne_nil _ _
  closing_ne := List.cons_ne_nil _ _
  opening_apart := by simp [reference]
  inner_apart c hc := by
    obtain rfl : c = '\x7d' := by simpa [reference] using hc
    decide

mutual

/-- The first value becomes the second one when the variables are put in. -/
inductive Expands (env : Variables) : Value → Value → Prop
  | null : Expands env .null .null
  | bool (b : Bool) : Expands env (.bool b) (.bool b)
  | int (n : Int) : Expands env (.int n) (.int n)
  | float (x : Double) : Expands env (.float x) (.float x)
  | str {s t : String} (h : reference.Fills (valueOf env) s.toList t.toList) :
      Expands env (.str s) (.str t)
  | list {vs ws : List Value} (h : ExpandsItems env vs ws) : Expands env (.list vs) (.list ws)
  | object {fs gs : List (String × Value)} (h : ExpandsFields env fs gs) :
      Expands env (.object fs) (.object gs)

inductive ExpandsItems (env : Variables) : List Value → List Value → Prop
  | nil : ExpandsItems env [] []
  | cons {v w : Value} {vs ws : List Value} (hv : Expands env v w) (hvs : ExpandsItems env vs ws) :
      ExpandsItems env (v :: vs) (w :: ws)

/-- Every field keeps its name. -/
inductive ExpandsFields (env : Variables) : List (String × Value) → List (String × Value) → Prop
  | nil : ExpandsFields env [] []
  | cons {k : String} {v w : Value} {fs gs : List (String × Value)} (hv : Expands env v w)
      (hfs : ExpandsFields env fs gs) : ExpandsFields env ((k, v) :: fs) ((k, w) :: gs)

end

variable {env : Variables}

theorem fills_substitute_iff {s t : String} :
    reference.Fills (valueOf env) s.toList t.toList ↔ t = substitute env s := by
  have hfilled : (substitute env s).toList = reference.fill (valueOf env) s.toList :=
    String.toList_ofList
  rw [TokenShape.fills_iff definite_reference, ← hfilled, String.toList_inj]

mutual

theorem expands_expand (env : Variables) : ∀ v, Expands env v (expand env v)
  | .null => .null
  | .bool b => .bool b
  | .int n => .int n
  | .float x => .float x
  | .str _ => .str (fills_substitute_iff.mpr rfl)
  | .list vs => .list (expandsItems_expandItems env vs)
  | .object fs => .object (expandsFields_expandFields env fs)

theorem expandsItems_expandItems (env : Variables) : ∀ vs, ExpandsItems env vs (expandItems env vs)
  | [] => .nil
  | v :: vs => .cons (expands_expand env v) (expandsItems_expandItems env vs)

theorem expandsFields_expandFields (env : Variables) :
    ∀ fs, ExpandsFields env fs (expandFields env fs)
  | [] => .nil
  | (_, v) :: fs => .cons (expands_expand env v) (expandsFields_expandFields env fs)

end

mutual

theorem Expands.eq_expand {v w : Value} : Expands env v w → w = expand env v
  | .null | .bool _ | .int _ | .float _ => rfl
  | .str h => congrArg Value.str (fills_substitute_iff.mp h)
  | .list h => congrArg Value.list h.eq_expandItems
  | .object h => congrArg Value.object h.eq_expandFields

theorem ExpandsItems.eq_expandItems {vs ws : List Value} :
    ExpandsItems env vs ws → ws = expandItems env vs
  | .nil => rfl
  | .cons hv hvs => congrArg₂ List.cons hv.eq_expand hvs.eq_expandItems

theorem ExpandsFields.eq_expandFields {fs gs : List (String × Value)} :
    ExpandsFields env fs gs → gs = expandFields env fs
  | .nil => rfl
  | .cons hv hfs => congrArg₂ (fun w gs => (_, w) :: gs) hv.eq_expand hfs.eq_expandFields

end

theorem expands_iff {v w : Value} : Expands env v w ↔ w = expand env v := by
  constructor
  · exact Expands.eq_expand
  · rintro rfl
    exact expands_expand env v

/-! ## Fields of an object -/

theorem keys_expandFields (env : Variables) (fs : Fields) :
    Table.keys (expandFields env fs) = Table.keys fs := by
  induction fs with
  | nil => rfl
  | cons f fs ih => exact congrArg (f.1 :: ·) ih

theorem get?_expandFields (env : Variables) (fs : Fields) (name : String) :
    Table.get? (expandFields env fs) name = (fs.get? name).map (expand env) := by
  induction fs with
  | nil => rfl
  | cons f fs ih =>
    obtain ⟨k, v⟩ := f
    rw [expandFields, Table.get?, Table.get?, ih]
    split <;> rfl

theorem expandFields_insert (env : Variables) (fs : Fields) (k : String) (v : Value) :
    expandFields env (fs.insert k v) = Table.insert (expandFields env fs) k (expand env v) := by
  induction fs with
  | nil => rfl
  | cons f fs ih =>
    obtain ⟨l, w⟩ := f
    rw [expandFields, Table.insert, Table.insert]
    split
    · rfl
    · rw [expandFields, ih]

theorem fields?_expand (env : Variables) (v : Value) :
    (expand env v).fields? = v.fields?.map (expandFields env) := by
  cases v <;> rfl

end Environment

end ChatFlow
