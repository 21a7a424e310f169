import ChatFlow.Proofs.Execution.Result
import ChatFlow.Proofs.Settings.Substitution
import ChatFlow.Settings.Basic

/-!
# What a settings file changes

The settings of a file are the defaults with the file laid over them, once its environment variables
are put in. `Overlaid` says what that means: a setting has the value of the file if its name is
there, and its default otherwise, and the endpoints of the backend are merged one by one. A name
that stands for no setting of the engine changes nothing (`ofFields_insert_engine`).

A file that cannot be read leaves the settings that were loaded before it (`Cache.get_run_of_current`).
-/

namespace ChatFlow

namespace Table

variable {κ α : Type} [DecidableEq κ] {t : Table κ α} {k : κ}

/-- The entries of a table, with the given value where their key is given. -/
def overlay (t given : Table κ α) : Table κ α :=
  t.map fun e => (e.1, (given.get? e.1).getD e.2)

theorem overlay_insert_of_not_mem (h : k ∉ keys t) (given : Table κ α) (v : α) :
    overlay t (given.insert k v) = overlay t given := by
  refine List.map_congr_left fun e he => ?_
  have hne : k ≠ e.1 := fun heq => h (heq ▸ List.mem_map_of_mem he)
  rw [get?_insert, if_neg hne]

end Table

namespace Value

mutual

/-- Every object in the value names each of its fields once. -/
def Distinct : Value → Prop
  | list vs => DistinctItems vs
  | object fs => (Table.keys fs).Nodup ∧ DistinctFields fs
  | _ => True

def DistinctItems : List Value → Prop
  | [] => True
  | v :: vs => Distinct v ∧ DistinctItems vs

def DistinctFields : List (String × Value) → Prop
  | [] => True
  | (_, v) :: fs => Distinct v ∧ DistinctFields fs

end

theorem distinct_of_get? {fs : Fields} {name : String} {v : Value} (hfs : DistinctFields fs)
    (h : fs.get? name = some v) : v.Distinct := by
  induction fs with
  | nil => cases h
  | cons f fs ih =>
    obtain ⟨k, w⟩ := f
    rw [DistinctFields] at hfs
    rw [Table.get?] at h
    split at h
    · exact Option.some.inj h ▸ hfs.1
    · exact ih hfs.2 h

theorem eq_object_of_fields? {v : Value} {fs : Fields} (h : v.fields? = some fs) :
    v = .object fs := by
  cases v with
  | object gs => exact congrArg object (Option.some.inj h)
  | _ => cases h

end Value

namespace Settings

variable {env : Environment.Variables} {fs raw : Fields} {name : String} {v : Value}
  {s : Settings}

/-- The fields of a part of a file; none if there is no such part or it is no object. -/
def partFields (fs : Fields) (name : String) : Fields :=
  ((fs.get? name).bind Value.fields?).getD []

theorem partFields_of_none (h : fs.get? name = none) : partFields fs name = [] := by
  rw [partFields, h]
  rfl

theorem partFields_of_some (h : fs.get? name = some v) :
    partFields fs name = v.fields?.getD [] := by
  rw [partFields, h]
  rfl

theorem partFields_expandFields (env : Environment.Variables) (fs : Fields) (name : String) :
    partFields (Environment.expandFields env fs) name =
      Environment.expandFields env (partFields fs name) := by
  rw [partFields, partFields, Environment.get?_expandFields]
  cases hv : fs.get? name with
  | none => rfl
  | some v => cases v <;> rfl

theorem orEmpty_object (fs : Fields) : orEmpty (.object fs) = .object fs := by
  cases fs <;> rfl

theorem distinctFields_partFields (h : (Value.object raw).Distinct) :
    Value.DistinctFields (partFields raw name) := by
  rw [Value.Distinct] at h
  cases hv : raw.get? name with
  | none =>
    rw [partFields_of_none hv]
    exact trivial
  | some v =>
    rw [partFields_of_some hv]
    have hdistinct := Value.distinct_of_get? h.2 hv
    cases v with
    | object fs =>
      rw [Value.Distinct] at hdistinct
      exact hdistinct.2
    | _ => exact trivial

theorem orEmpty_eq (v : Value) :
    orEmpty v = .object (v.fields?.getD []) ∨ v.fields? = none ∧ orEmpty v = v := by
  cases v with
  | object fs => exact .inl (orEmpty_object fs)
  | _ =>
    unfold orEmpty
    split
    · exact .inr ⟨rfl, rfl⟩
    · exact .inl rfl

theorem part_eq_ok {α : Type} {default a : α} {read : Value → Except Fault α}
    (h : part fs name default read = .ok a) :
    fs.get? name = none ∧ a = default ∨ ∃ v, fs.get? name = some v ∧ read (orEmpty v) = .ok a := by
  unfold part at h
  cases hv : fs.get? name with
  | none =>
    rw [hv] at h
    exact .inl ⟨rfl, (Except.ok.inj h).symm⟩
  | some v =>
    rw [hv] at h
    exact .inr ⟨v, rfl, h⟩

/-! ## The engine -/

theorem ofValue_eq_ok {e : EngineConfig} (hv : v.fields? = none)
    (h : EngineConfig.ofValue v = .ok e) : e = EngineConfig.ofFields [] := by
  unfold EngineConfig.ofValue at h
  split at h
  · cases hv
  · split at h
    · cases h
    · exact (Except.ok.inj h).symm
  · split at h
    · cases h
    · exact (Except.ok.inj h).symm
  · cases h

theorem engine_eq {e : EngineConfig}
    (h : part fs "engine" {} EngineConfig.ofValue = .ok e) :
    e = EngineConfig.ofFields (partFields fs "engine") := by
  rcases part_eq_ok h with ⟨hnone, rfl⟩ | ⟨v, hv, hread⟩
  · rw [partFields_of_none hnone]
    rfl
  rw [partFields_of_some hv]
  rcases orEmpty_eq v with heq | ⟨hfields, heq⟩
  · rw [heq] at hread
    exact (Except.ok.inj hread).symm
  · -- a list or a text that holds no name of a setting
    rw [heq] at hread
    rw [hfields]
    exact ofValue_eq_ok hfields hread

theorem fields_ofFields (fs : Fields) :
    (EngineConfig.ofFields fs).fields = Table.overlay (EngineConfig.fields {}) fs := rfl

theorem ofFields_fields (e : EngineConfig) : EngineConfig.ofFields e.fields = e := rfl

theorem ofFields_insert_of_not_mem (h : name ∉ EngineConfig.names) (fs : Fields) (v : Value) :
    EngineConfig.ofFields (fs.insert name v) = EngineConfig.ofFields fs := by
  rw [← ofFields_fields (.ofFields (fs.insert name v)), fields_ofFields,
    Table.overlay_insert_of_not_mem h, ← fields_ofFields, ofFields_fields]

/-! ## The backend -/

/-- The endpoints that are there without a file. -/
def standardEndpoints : Fields :=
  (BackendConfig.endpoints {}).fields?.getD []

theorem fields_overlay (fs : Fields) (endpoints : Value) :
    BackendConfig.fields { BackendConfig.overlay fs with endpoints := endpoints } =
      Table.overlay (BackendConfig.fields {}) (fs.insert "endpoints" endpoints) := by
  simp [BackendConfig.fields, BackendConfig.overlay, Table.overlay]

theorem backend_eq {b : BackendConfig}
    (h : part fs "backend" {} BackendConfig.ofFile = .ok b) :
    ∃ given, ((partFields fs "backend").get? "endpoints").getD (.object []) = .object given ∧
      b = { BackendConfig.overlay (partFields fs "backend") with
        endpoints := .object (Table.merge standardEndpoints given) } := by
  rcases part_eq_ok h with ⟨hnone, rfl⟩ | ⟨v, hv, hread⟩
  · rw [partFields_of_none hnone]
    exact ⟨[], rfl, rfl⟩
  rw [partFields_of_some hv]
  rcases orEmpty_eq v with heq | ⟨hfields, heq⟩
  · rw [heq] at hread
    obtain ⟨endpoints, hendpoints, hb⟩ := bind_eq_ok.mp hread
    unfold BackendConfig.mergeEndpoints at hendpoints
    split at hendpoints
    · rename_i given hgiven
      obtain rfl := Except.ok.inj hendpoints
      exact ⟨given, hgiven, (Except.ok.inj hb).symm⟩
    · cases hendpoints
  · rw [heq] at hread
    cases v with
    | object fs => cases hfields
    | _ => cases hread

theorem nodup_endpoints {given : Fields} (hraw : (Value.object raw).Distinct)
    (h : ((partFields (Environment.expandFields env raw) "backend").get? "endpoints").getD
      (.object []) = .object given) : (Table.keys given).Nodup := by
  rw [partFields_expandFields, Environment.get?_expandFields] at h
  cases hv : (partFields raw "backend").get? "endpoints" with
  | none =>
    rw [hv] at h
    obtain rfl : [] = given := Value.object.inj h
    exact List.nodup_nil
  | some v =>
    rw [hv] at h
    have hfields : v.fields?.map (Environment.expandFields env) = some given := by
      rw [← Environment.fields?_expand]
      exact congrArg Value.fields? h
    -- the variables change no name, so the names are those of the file
    obtain ⟨es, hes, rfl⟩ := Option.map_eq_some_iff.mp hfields
    rw [Environment.keys_expandFields]
    have hdistinct : v.Distinct := Value.distinct_of_get? (distinctFields_partFields hraw) hv
    rw [Value.eq_object_of_fields? hes, Value.Distinct] at hdistinct
    exact hdistinct.1

/-! ## Settings from fields -/

/-- The settings are the defaults with the fields of a file laid over them. -/
structure Overlaid (fs : Fields) (s : Settings) : Prop where
  appName : s.appName = (fs.get? "app_name").getD (Settings.appName {})
  debug : s.debug = (fs.get? "debug").getD (Settings.debug {})
  flows : s.flows = (fs.get? "flows").getD (Settings.flows {})
  engine : s.engine.fields = Table.overlay (EngineConfig.fields {}) (partFields fs "engine")
  /-- The endpoints are those of the file, and of the others the standard ones. -/
  backend : ∃ given merged,
    ((partFields fs "backend").get? "endpoints").getD (.object []) = .object given ∧
      (∀ name, Table.get? merged name =
        (Table.get? given name).or (standardEndpoints.get? name)) ∧
      (Table.keys merged).Nodup ∧
      s.backend.fields = Table.overlay (BackendConfig.fields {})
        ((partFields fs "backend").insert "endpoints" (.object merged))

theorem ofFields_eq_ok : ofFields fs = .ok s ↔
    ∃ e b, part fs "engine" {} EngineConfig.ofValue = .ok e ∧
      part fs "backend" {} BackendConfig.ofFile = .ok b ∧
      s = ⟨(fs.get? "app_name").getD (Settings.appName {}),
        (fs.get? "debug").getD (Settings.debug {}), e, b,
        (fs.get? "flows").getD (Settings.flows {})⟩ := by
  unfold ofFields
  constructor
  · intro h
    obtain ⟨e, he, h⟩ := bind_eq_ok.mp h
    obtain ⟨b, hb, h⟩ := bind_eq_ok.mp h
    exact ⟨e, b, he, hb, (Except.ok.inj h).symm⟩
  · rintro ⟨e, b, he, hb, rfl⟩
    exact bind_eq_ok.mpr ⟨e, he, bind_eq_ok.mpr ⟨b, hb, rfl⟩⟩

theorem overlaid_of_ofFields (h : ofFields fs = .ok s)
    (hendpoints : ∀ given, ((partFields fs "backend").get? "endpoints").getD (.object []) =
      .object given → (Table.keys given).Nodup) : Overlaid fs s := by
  obtain ⟨e, b, he, hb, rfl⟩ := ofFields_eq_ok.mp h
  obtain ⟨given, hgiven, rfl⟩ := backend_eq hb
  have hnodup : (Table.keys standardEndpoints).Nodup := by decide
  refine ⟨rfl, rfl, rfl, ?_, given, Table.merge standardEndpoints given, hgiven, ?_, ?_, ?_⟩
  · rw [engine_eq he, fields_ofFields]
  · exact Table.get?_merge (hendpoints given hgiven) standardEndpoints
  · exact Table.nodup_keys_merge hnodup given
  · exact fields_overlay (partFields fs "backend") _

/-- A name that stands for no setting of the engine changes nothing. -/
theorem ofFields_insert_engine (hname : name ∉ EngineConfig.names) (h : ofFields fs = .ok s)
    (v : Value) :
    ofFields (fs.insert "engine" (.object ((partFields fs "engine").insert name v))) = .ok s := by
  obtain ⟨e, b, he, hb, rfl⟩ := ofFields_eq_ok.mp h
  have hother (gs : Fields) (other : String) (hne : "engine" ≠ other) :
      Table.get? (fs.insert "engine" (.object gs)) other = fs.get? other := by
    rw [Table.get?_insert, if_neg hne]
  refine ofFields_eq_ok.mpr ⟨e, b, ?_, ?_, ?_⟩
  · rw [part, Table.get?_insert, if_pos rfl, engine_eq he,
      ← ofFields_insert_of_not_mem hname (partFields fs "engine") v]
    show EngineConfig.ofValue (orEmpty _) = _
    rw [orEmpty_object]
    rfl
  · rwa [part, hother _ _ (by decide)]
  · rw [hother _ _ (by decide), hother _ _ (by decide), hother _ _ (by decide)]

/-! ## Settings that are kept -/

/-- A use of the settings that are kept. -/
inductive Access
  | load (env : Environment.Variables) (source : Source)
  | get (env : Environment.Variables)

namespace Cache

variable {c : Cache} {a : Access} {as : List Access}

def access (c : Cache) : Access → Except Fault Settings × Cache
  | .load env source => c.load env source
  | .get env => c.get env

/-- The settings that are kept after several uses. -/
def run (c : Cache) (as : List Access) : Cache :=
  as.foldl (fun c a => (c.access a).2) c

/-- Loading fails. -/
def Fails (env : Environment.Variables) (source : Source) : Prop :=
  ∃ e, read env source = .error e

theorem load_of_fails {source : Source} (h : Fails env source) (c : Cache) :
    (c.load env source).2 = c := by
  obtain ⟨e, he⟩ := h
  rw [load, he]

theorem get_of_current (h : c.current = some s) (env : Environment.Variables) :
    c.get env = (.ok s, c) := by
  rw [get, h]

theorem access_of_current (h : c.current = some s)
    (hfails : ∀ env source, a = .load env source → Fails env source) : (c.access a).2 = c := by
  cases a with
  | load env source => exact load_of_fails (hfails env source rfl) c
  | get env => rw [access, get_of_current h]

theorem run_of_current (h : c.current = some s)
    (hfails : ∀ env source, .load env source ∈ as → Fails env source) : c.run as = c := by
  induction as with
  | nil => rfl
  | cons a as ih =>
    have ha : (c.access a).2 = c :=
      access_of_current h fun env source heq => hfails env source (heq ▸ List.mem_cons_self)
    rw [run, List.foldl_cons, ha]
    exact ih fun env source hmem => hfails env source (List.mem_cons_of_mem _ hmem)

/-- Settings that are kept are still given out after any number of uses, of which each that loads a
file fails. -/
theorem get_run_of_current (h : c.current = some s)
    (hfails : ∀ env source, .load env source ∈ as → Fails env source)
    (env : Environment.Variables) : ((c.run as).get env).1 = .ok s := by
  rw [run_of_current h hfails, get_of_current h]

end Cache

/-! ## Loading -/

theorem read_file (env : Environment.Variables) (raw : Fields) :
    read env (.file (.object raw)) = ofFields (Environment.expandFields env raw) := by
  rw [read, ofFile, orEmpty_object]
  rfl

theorem expandFields_insert_engine (env : Environment.Variables) (raw : Fields) (name : String)
    (v : Value) :
    Environment.expandFields env
        (raw.insert "engine" (.object ((partFields raw "engine").insert name v))) =
      Table.insert (Environment.expandFields env raw) "engine"
        (.object ((partFields (Environment.expandFields env raw) "engine").insert name
          (Environment.expand env v))) := by
  rw [partFields_expandFields, ← Environment.expandFields_insert env (partFields raw "engine"),
    Environment.expandFields_insert]
  rfl

/-- The settings of a file that is accepted are the defaults with what the file becomes laid over
them; a further name that stands for no setting of the engine changes nothing. Settings that are
kept stay what they are, however many files are refused. -/
theorem only_named_settings_change :
    (∀ (env : Environment.Variables) (raw : Fields) (s : Settings),
      (Value.object raw).Distinct → read env (.file (.object raw)) = .ok s →
        (∃ fs, (∀ v, Environment.Expands env (.object raw) v ↔ v = .object fs) ∧ Overlaid fs s) ∧
        ∀ name v, name ∉ EngineConfig.names →
          read env (.file (.object (raw.insert "engine"
            (.object ((partFields raw "engine").insert name v))))) = .ok s) ∧
    ∀ (c : Cache) (kept : Settings) (as : List Access), c.current = some kept →
      (∀ env source, .load env source ∈ as → Cache.Fails env source) →
      ∀ env, ((c.run as).get env).1 = .ok kept := by
  refine ⟨fun env raw s hraw h => ?_, fun _ _ _ => Cache.get_run_of_current⟩
  have hfields : ofFields (Environment.expandFields env raw) = .ok s := by rw [← read_file, h]
  refine ⟨⟨Environment.expandFields env raw, fun v => Environment.expands_iff, ?_⟩, ?_⟩
  · exact overlaid_of_ofFields hfields fun given => nodup_endpoints hraw
  · intro name v hname
    rw [read_file, expandFields_insert_engine]
    exact ofFields_insert_engine hname hfields _

/-- A file that names a setting of the engine, a name that is none, and an endpoint. A variable
brings in what looks like another one, and one that is not set stays. -/
theorem named_settings_changed :
    let env : Environment.Variables := [("NAME", "Bot"), ("HOST", "$\x7bNAME\x7d")]
    let raw : Fields :=
      [("app_name", .str "$\x7bNAME\x7d of $\x7bOWNER\x7d"),
        ("engine", .object [("voice_mode", .bool true), ("colour", .str "red")]),
        ("backend", .object [("endpoints", .object [("actions", .str "$\x7bHOST\x7d/v2")])])]
    let endpoints : Fields :=
      [("ai", .str "/api/chatbot/ai"), ("actions", .str "$\x7bNAME\x7d/v2")]
    let s : Settings :=
      { appName := .str "Bot of $\x7bOWNER\x7d"
        engine := { voiceMode := .bool true }
        backend := { endpoints := .object endpoints } }
    (Value.object raw).Distinct ∧ read env (.file (.object raw)) = .ok s ∧
      "theme" ∉ EngineConfig.names ∧ Cache.Fails env (.file (.list [.null])) ∧
      (∃ fs, Environment.Expands env (.object raw) (.object fs) ∧ Overlaid fs s) ∧
      read env (.file (.object (raw.insert "engine"
        (.object ((partFields raw "engine").insert "theme" .null))))) = .ok s ∧
      ((Cache.run ⟨some s⟩ [.load env (.file (.list [.null])), .get env]).get env).1 = .ok s := by
  intro env raw endpoints s
  have hraw : (Value.object raw).Distinct := by
    simp [raw, Value.Distinct, Value.DistinctFields, Table.keys]
  have hread : read env (.file (.object raw)) = .ok s := by decide
  have hname : "theme" ∉ EngineConfig.names := by decide
  have hfails : Cache.Fails env (.file (.list [.null])) := ⟨.noSuchMember, rfl⟩
  obtain ⟨hchange, hkept⟩ := only_named_settings_change
  obtain ⟨⟨fs, hfs, hs⟩, hunknown⟩ := hchange env raw s hraw hread
  refine ⟨hraw, hread, hname, hfails, ⟨fs, (hfs _).mpr rfl, hs⟩, hunknown _ _ hname,
    hkept _ s _ rfl ?_ env⟩
  intro env' source hmem
  obtain ⟨rfl, rfl⟩ : env' = env ∧ source = .file (.list [.null]) := by simpa using hmem
  exact hfails

end Settings

end ChatFlow
