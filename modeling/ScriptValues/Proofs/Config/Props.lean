/-
What the configuration depends on. Of a document it is the datum under `props` and nothing else; of a table there, it
is the data under `map` and `iteration`, and each mode depends on its own entry (`parse_depends_on_props`).

A mode is read by matching on how its value is written, so two values that say the same could be read differently.
Since keys of a document are distinct, they are not: which name a value spells is settled by its datum
(`spells_iff_datum`).
-/
import ScriptValues.Config.File
import ScriptValues.Proofs.Toml.Datum

namespace ScriptValues

open Toml (Value Datum readDocument)

/-! ## Modes -/

/-- A value spells a name as a string, or as a table with the name as its only key and nothing under it. -/
def Spells (name : String) (v : Toml.Value) : Prop :=
  v = .string name ∨ v = .table [(name, .table [])] ∨ v = .table [(name, .array [])]

theorem modeOf_eq_some_iff {μ : Type} {modes : Modes μ} {v : Toml.Value} {mode : μ} :
    modeOf modes v = some mode ↔ Spells (modes.name mode) v := by
  have hspells : modeOf modes v = some mode ↔ ∃ name, Spells name v ∧ modes.ofName? name = some mode := by
    constructor
    · intro h
      unfold modeOf at h
      split at h
      · exact ⟨_, .inl rfl, h⟩
      · exact ⟨_, .inr (.inl rfl), h⟩
      · exact ⟨_, .inr (.inr rfl), h⟩
      · cases h
    · rintro ⟨name, rfl | rfl | rfl, hname⟩
      · exact hname
      · exact hname
      · exact hname
  simp only [hspells, modes.ofName?_eq_some_iff, exists_eq_right']

/-- An entry gives a mode by spelling its name, or by its absence if the mode is the default. -/
def Gives {μ : Type} (nameOf : μ → String) (default : μ) : Option Toml.Value → μ → Prop
  | none, mode => mode = default
  | some v, mode => Spells (nameOf mode) v

/-- An entry is absent or spells the name of a mode. -/
def Valid {μ : Type} (nameOf : μ → String) (entry : Option Toml.Value) : Prop :=
  ∀ v, entry = some v → ∃ mode, Spells (nameOf mode) v

section Modes

variable {μ : Type} {nameOf : μ → String} {default : μ}

theorem optionalMode_eq_some_iff (modes : Modes μ) {entry : Option Toml.Value} {mode : μ} :
    optionalMode modes default entry = some mode ↔ Gives modes.name default entry mode := by
  cases entry with
  | none => exact Option.some_inj.trans eq_comm
  | some v => exact modeOf_eq_some_iff

theorem exists_gives_iff {entry : Option Toml.Value} :
    (∃ mode, Gives nameOf default entry mode) ↔ Valid nameOf entry := by
  cases entry with
  | none => exact ⟨fun _ => nofun, fun _ => ⟨default, rfl⟩⟩
  | some v =>
    constructor
    · rintro ⟨mode, hmode⟩ v' ⟨⟩
      exact ⟨mode, hmode⟩
    · intro h
      exact h v rfl

end Modes

/-! ## Modes by their data -/

/-- The data that spell a name. -/
theorem spells_iff_datum {v : Toml.Value} (hv : v.Distinct) {name : String} :
    Spells name v ↔ v.datum = .string name ∨ v.datum = .single name .empty ∨ v.datum = .single name (.array []) := by
  refine or_congr ⟨?_, Toml.eq_string_of_datum⟩ (or_congr ?_ ?_)
  · rintro rfl
    rw [Toml.Value.datum]
  · simp only [Toml.datum_eq_single_iff hv, Toml.datum_eq_empty_iff, exists_eq_left]
  · simp only [Toml.datum_eq_single_iff hv, Toml.datum_eq_noItems_iff, exists_eq_left]

theorem modeOf_congr {μ : Type} {modes : Modes μ} {v v' : Toml.Value} (hv : v.Distinct) (hv' : v'.Distinct)
    (h : v.datum = v'.datum) : modeOf modes v = modeOf modes v' := by
  refine Option.ext fun mode => ?_
  simp only [modeOf_eq_some_iff, spells_iff_datum hv, spells_iff_datum hv', h]

theorem optionalMode_congr {μ : Type} {modes : Modes μ} {default : μ} {entry entry' : Option Toml.Value}
    (hentry : ∀ v, entry = some v → v.Distinct) (hentry' : ∀ v, entry' = some v → v.Distinct)
    (h : entry.map Toml.Value.datum = entry'.map Toml.Value.datum) :
    optionalMode modes default entry = optionalMode modes default entry' := by
  cases entry with
  | none => rw [Option.map_eq_none_iff.1 h.symm]
  | some v =>
    obtain ⟨v', rfl, hdatum⟩ := Option.map_eq_some_iff.1 h.symm
    exact modeOf_congr (hentry v rfl) (hentry' v' rfl) hdatum.symm

namespace Config

theorem ofModes_eq_some_iff {map iteration : Option Toml.Value} {config : Config} :
    ofModes map iteration = some config ↔
      Gives MapMode.name .concurrent map config.map ∧ Gives IterationMode.name .live iteration config.iteration := by
  refine Iff.trans ?_
    (and_congr (optionalMode_eq_some_iff MapMode.modes) (optionalMode_eq_some_iff IterationMode.modes))
  constructor
  · intro h
    obtain ⟨mode, hmode, h⟩ := Option.bind_eq_some_iff.1 h
    obtain ⟨mode', hmode', h⟩ := Option.bind_eq_some_iff.1 h
    cases h
    exact ⟨hmode, hmode'⟩
  · rintro ⟨hmap, hiteration⟩
    exact Option.bind_eq_some_iff.2 ⟨_, hmap, Option.bind_eq_some_iff.2 ⟨_, hiteration, rfl⟩⟩

theorem ofModes_congr {map map' iteration iteration' : Option Toml.Value} (hmap : ∀ v, map = some v → v.Distinct)
    (hmap' : ∀ v, map' = some v → v.Distinct) (hiteration : ∀ v, iteration = some v → v.Distinct)
    (hiteration' : ∀ v, iteration' = some v → v.Distinct)
    (hsame : map.map Toml.Value.datum = map'.map Toml.Value.datum)
    (hsame' : iteration.map Toml.Value.datum = iteration'.map Toml.Value.datum) :
    ofModes map iteration = ofModes map' iteration' := by
  unfold ofModes
  rw [optionalMode_congr hmap hmap' hsame, optionalMode_congr hiteration hiteration' hsame']

/-- Values that say the same stand for the same configuration. -/
theorem ofValue_congr {v v' : Toml.Value} (hv : v.Distinct) (hv' : v'.Distinct) (h : v.datum = v'.datum) :
    ofValue v = ofValue v' := by
  cases hv with
  | table hkeys hheld =>
    rw [Toml.Value.datum] at h
    obtain ⟨entries', rfl, hentries⟩ := Toml.eq_table_of_datum h.symm
    have hkeyed := Toml.Value.distinct_table_iff.1 hv'
    have hsame := fun key => (hentries key).trans (Toml.entriesDatum_eq_lookup _ key)
    exact ofModes_congr (fun _ => Keyed.of_lookup ⟨hkeys, hheld⟩) (fun _ => hkeyed.of_lookup)
      (fun _ => Keyed.of_lookup ⟨hkeys, hheld⟩) (fun _ => hkeyed.of_lookup) (hsame "map").symm (hsame "iteration").symm
  | array hitems =>
    rw [Toml.Value.datum, Toml.itemsDatum_eq_map] at h
    obtain ⟨items', rfl, hsame⟩ := Toml.eq_array_of_datum h.symm
    cases hv' with
    | array hitems' =>
      have hget := fun i : Nat => congrArg (fun l : List Datum => l[i]?) hsame.symm
      simp only [List.getElem?_map] at hget
      exact ofModes_congr (fun _ hget => hitems _ (List.mem_of_getElem? hget))
        (fun _ hget => hitems' _ (List.mem_of_getElem? hget)) (fun _ hget => hitems _ (List.mem_of_getElem? hget))
        (fun _ hget => hitems' _ (List.mem_of_getElem? hget)) (hget 0) (hget 1)
  | string | integer | float | boolean | dateTime =>
    cases hv' <;> simp only [Toml.Value.datum, reduceCtorEq] at h
    rfl

theorem parse_eq_ok_iff {text : String} {config : Config} :
    parse text = .ok config ↔ ofDocument text = some config := by
  unfold parse
  split
  · next h => rw [h, Except.ok.injEq, Option.some_inj]
  · next h => rw [h]; exact ⟨nofun, nofun⟩

/-! ## Documents -/

/-- The configuration of a document that can be read. -/
theorem ofDocument_eq {text : String} {doc : List (String × Toml.Value)} (hdoc : readDocument text.toList = some doc) :
    ofDocument text = ((doc.lookup "props").map ofValue).getD (some {}) := by
  rw [ofDocument, hdoc, Option.bind_eq_bind, Option.bind_some]
  cases doc.lookup "props" <;> rfl

variable {text text' : String} {doc doc' : List (String × Toml.Value)}

theorem parse_of_table (hdoc : readDocument text.toList = some doc) {entries : List (String × Toml.Value)}
    (hprops : doc.lookup "props" = some (.table entries)) {config : Config} :
    parse text = .ok config ↔ Gives MapMode.name .concurrent (entries.lookup "map") config.map ∧
      Gives IterationMode.name .live (entries.lookup "iteration") config.iteration := by
  rw [parse_eq_ok_iff, ofDocument_eq hdoc, hprops]
  exact ofModes_eq_some_iff

theorem entries_keyed (hdoc : readDocument text.toList = some doc) {entries : List (String × Toml.Value)}
    (hprops : doc.lookup "props" = some (.table entries)) : Keyed Toml.Value.Distinct entries :=
  Toml.Value.distinct_table_iff.1 ((Toml.readDocument_keyed hdoc).of_lookup hprops)

theorem parse_congr (hdoc : readDocument text.toList = some doc) (hdoc' : readDocument text'.toList = some doc')
    (hsame : (doc.lookup "props").map Toml.Value.datum = (doc'.lookup "props").map Toml.Value.datum) :
    parse text = parse text' := by
  suffices ofDocument text = ofDocument text' by rw [parse, parse, this]
  rw [ofDocument_eq hdoc, ofDocument_eq hdoc']
  cases hprops : doc.lookup "props" with
  | none =>
    rw [hprops] at hsame
    rw [Option.map_eq_none_iff.1 hsame.symm]
  | some v =>
    rw [hprops] at hsame
    obtain ⟨v', hprops', hdatum⟩ := Option.map_eq_some_iff.1 hsame.symm
    have hv := (Toml.readDocument_keyed hdoc).of_lookup hprops
    have hv' := (Toml.readDocument_keyed hdoc').of_lookup hprops'
    rw [hprops']
    exact ofValue_congr hv hv' hdatum.symm

/-- Entries that say the same give the same mode. -/
theorem gives_unique {μ : Type} (modes : Modes μ) {default mode mode' : μ}
    {entries entries' : List (String × Toml.Value)} (hentries : Keyed Toml.Value.Distinct entries)
    (hentries' : Keyed Toml.Value.Distinct entries') {key : String}
    (hsame : (entries.lookup key).map Toml.Value.datum = (entries'.lookup key).map Toml.Value.datum)
    (h : Gives modes.name default (entries.lookup key) mode)
    (h' : Gives modes.name default (entries'.lookup key) mode') : mode = mode' := by
  rw [← optionalMode_eq_some_iff] at h h'
  have hcongr := @optionalMode_congr μ modes default _ _ (fun _ => hentries.of_lookup)
    (fun _ => hentries'.of_lookup) hsame
  exact Option.some_inj.1 (h.symm.trans (hcongr.trans h'))

/-- **What the configuration depends on.** Take two documents that can be read. If `props` is absent from both or says
the same in both, they give the same outcome. If it is absent, the outcome is the defaults. If it is a table, there is a
configuration just if each of `map` and `iteration` is absent or spells one of its modes; it is then the one that the
two entries give, each its own mode, and in the other document an entry that says the same gives the same mode, both
together the same outcome. -/
theorem parse_depends_on_props (hdoc : readDocument text.toList = some doc)
    (hdoc' : readDocument text'.toList = some doc') :
    ((doc.lookup "props").map Toml.Value.datum = (doc'.lookup "props").map Toml.Value.datum →
      parse text = parse text') ∧
    (doc.lookup "props" = none → parse text = .ok {}) ∧
    ∀ entries, doc.lookup "props" = some (.table entries) →
      ((∃ config, parse text = .ok config) ↔
        Valid MapMode.name (entries.lookup "map") ∧ Valid IterationMode.name (entries.lookup "iteration")) ∧
      (∀ config, parse text = .ok config ↔
        Gives MapMode.name .concurrent (entries.lookup "map") config.map ∧
        Gives IterationMode.name .live (entries.lookup "iteration") config.iteration) ∧
      ∀ entries', doc'.lookup "props" = some (.table entries') →
        let same key := (entries.lookup key).map Toml.Value.datum = (entries'.lookup key).map Toml.Value.datum
        (same "map" → ∀ config config', parse text = .ok config → parse text' = .ok config' →
          config.map = config'.map) ∧
        (same "iteration" → ∀ config config', parse text = .ok config → parse text' = .ok config' →
          config.iteration = config'.iteration) ∧
        (same "map" → same "iteration" → parse text = parse text') := by
  refine ⟨parse_congr hdoc hdoc', fun hprops => ?_, fun entries hprops => ⟨?_, fun _ => parse_of_table hdoc hprops, ?_⟩⟩
  · rw [parse_eq_ok_iff, ofDocument_eq hdoc, hprops]
    rfl
  · rw [← exists_gives_iff, ← exists_gives_iff]
    constructor
    · rintro ⟨config, hconfig⟩
      obtain ⟨hmap, hiteration⟩ := (parse_of_table hdoc hprops).1 hconfig
      exact ⟨⟨_, hmap⟩, ⟨_, hiteration⟩⟩
    · rintro ⟨⟨map, hmap⟩, ⟨iteration, hiteration⟩⟩
      exact ⟨⟨map, iteration⟩, (parse_of_table hdoc hprops).2 ⟨hmap, hiteration⟩⟩
  · intro entries' hprops'
    have hkeyed := entries_keyed hdoc hprops
    have hkeyed' := entries_keyed hdoc' hprops'
    refine ⟨fun hsame config config' h h' => ?_, fun hsame config config' h h' => ?_, fun hmap hiteration => ?_⟩
    · exact gives_unique MapMode.modes hkeyed hkeyed' hsame ((parse_of_table hdoc hprops).1 h).1
        ((parse_of_table hdoc' hprops').1 h').1
    · exact gives_unique IterationMode.modes hkeyed hkeyed' hsame ((parse_of_table hdoc hprops).1 h).2
        ((parse_of_table hdoc' hprops').1 h').2
    · have hmodes := ofModes_congr (fun _ => hkeyed.of_lookup) (fun _ => hkeyed'.of_lookup)
        (fun _ => hkeyed.of_lookup) (fun _ => hkeyed'.of_lookup) hmap hiteration
      have hdocuments : ofDocument text = ofDocument text' := by
        rw [ofDocument_eq hdoc, ofDocument_eq hdoc', hprops, hprops']
        exact hmodes
      rw [parse, parse, hdocuments]

/-- A mode under a header, and under a dotted key among other entries. -/
theorem parse_dotted_eq_headed :
    parse "props.map = 'sequential'" = .ok ⟨.sequential, .live⟩ ∧
      parse "props.map = 'sequential'" = parse "x = 'y'\n[props]\nmap = \"sequential\"" := by
  have hdoc : readDocument "props.map = 'sequential'".toList =
    some [("props", .table [("map", .string "sequential")])] := by decide +kernel
  have hdoc' : readDocument "x = 'y'\n[props]\nmap = \"sequential\"".toList =
    some [("x", .string "y"), ("props", .table [("map", .string "sequential")])] := by decide +kernel
  obtain ⟨hsame, -, htable⟩ := parse_depends_on_props hdoc hdoc'
  exact ⟨((htable _ rfl).2.1 _).2 ⟨.inl rfl, rfl⟩, hsame rfl⟩

end Config

end ScriptValues
