/-
Keys of a document are distinct. However a table comes about, under its header, by dotted keys, in braces or as an
element of an array of tables, a key that it holds already is never added to it again. So it is of every table of a
document that can be read, at every level (`readDocument_keyed`), and a table is determined by what is found under its
keys, whatever the order in which they were written.
-/
import Mathlib.Data.List.Nodup
import ScriptValues.Toml.Document

namespace ScriptValues

/-! ## Association lists -/

/-- No key stands twice, and all that is held is of `P`. -/
structure Keyed {α : Type} (P : α → Prop) (l : List (String × α)) : Prop where
  keys : (l.map Prod.fst).Nodup
  held : ∀ p ∈ l, P p.2

namespace Keyed

variable {α : Type} {P : α → Prop} {l : List (String × α)} {key : String} {a : α}

theorem nil : Keyed P [] := ⟨.nil, nofun⟩

theorem of_lookup (h : Keyed P l) (ha : l.lookup key = some a) : P a := h.held (key, a) (mem_of_lookup ha)

/-- A key that is not there is added. -/
theorem snoc (h : Keyed P l) (hkey : l.lookup key = none) (ha : P a) : Keyed P (l ++ [(key, a)]) where
  keys := by
    rw [List.map_append, List.map_singleton]
    refine List.nodup_append.2 ⟨h.keys, List.nodup_singleton _, ?_⟩
    rintro k hk k' hk' rfl
    rw [List.mem_singleton.1 hk'] at hk
    exact lookup_eq_none_iff_not_mem_keys.1 hkey hk
  held p hp := by
    rcases List.mem_append.1 hp with hp | hp
    · exact h.held p hp
    · rw [List.mem_singleton.1 hp]
      exact ha

theorem fst_of_mem_setKey {p : String × α} (hp : p ∈ setKey key a l) : p = (key, a) ∨ p ∈ l := by
  induction l with
  | nil => exact .inl (List.mem_singleton.1 hp)
  | cons q l ih =>
    obtain ⟨k, b⟩ := q
    rw [setKey] at hp
    split at hp
    · rcases List.mem_cons.1 hp with rfl | hp
      · exact .inl rfl
      · exact .inr (List.mem_cons_of_mem _ hp)
    · rcases List.mem_cons.1 hp with rfl | hp
      · exact .inr List.mem_cons_self
      · exact (ih hp).imp_right (List.mem_cons_of_mem _)

theorem setKey (h : Keyed P l) (ha : P a) : Keyed P (ScriptValues.setKey key a l) where
  keys := by
    obtain ⟨hkeys, -⟩ := h
    induction l with
    | nil => exact List.nodup_singleton _
    | cons q l ih =>
      obtain ⟨k, b⟩ := q
      obtain ⟨hk, hrest⟩ := List.nodup_cons.1 hkeys
      rw [ScriptValues.setKey]
      split
      · next heq => exact List.nodup_cons.2 ⟨heq ▸ hk, hrest⟩
      · next hne =>
        refine List.nodup_cons.2 ⟨fun hmem => ?_, ih hrest⟩
        obtain ⟨p, hp, hpk⟩ := List.mem_map.1 hmem
        rcases fst_of_mem_setKey hp with rfl | hp
        · exact hne hpk.symm
        · exact hk (List.mem_map.2 ⟨p, hp, hpk⟩)
  held p hp := by
    rcases fst_of_mem_setKey hp with rfl | hp
    · exact ha
    · exact h.held p hp

end Keyed

namespace Toml

/-! ## Values and nodes -/

/-- The keys of its tables are distinct, at every level. -/
inductive Value.Distinct : Value → Prop
  | string (s) : Distinct (.string s)
  | integer (i) : Distinct (.integer i)
  | float (x) : Distinct (.float x)
  | boolean (b) : Distinct (.boolean b)
  | dateTime (d) : Distinct (.dateTime d)
  | array {items} : (∀ v ∈ items, Distinct v) → Distinct (.array items)
  | table {entries} : (entries.map Prod.fst).Nodup → (∀ p ∈ entries, Distinct p.2) → Distinct (.table entries)

/-- So it is while a document is read. -/
inductive Node.Distinct : Node → Prop
  | leaf {v : Value} : v.Distinct → Distinct (.leaf v)
  | table {origin entries} : (entries.map Prod.fst).Nodup → (∀ p ∈ entries, Distinct p.2) →
      Distinct (.table origin entries)
  | tables {elements} : (∀ t ∈ elements, (t.map Prod.fst).Nodup) → (∀ t ∈ elements, ∀ p ∈ t, Distinct p.2) →
      Distinct (.tables elements)

theorem Value.distinct_table_iff {entries : List (String × Value)} :
    (Value.table entries).Distinct ↔ Keyed Value.Distinct entries := by
  constructor
  · intro h
    cases h with
    | table hkeys hheld => exact ⟨hkeys, hheld⟩
  · intro h
    exact .table h.keys h.held

theorem Node.distinct_table_iff {origin : Origin} {t : Entries} :
    (Node.table origin t).Distinct ↔ Keyed Node.Distinct t := by
  constructor
  · intro h
    cases h with
    | table hkeys hheld => exact ⟨hkeys, hheld⟩
  · intro h
    exact .table h.keys h.held

theorem Node.distinct_tables_iff {ts : List Entries} :
    (Node.tables ts).Distinct ↔ ∀ t ∈ ts, Keyed Node.Distinct t := by
  constructor
  · intro h
    cases h with
    | tables hkeys hheld => exact fun t ht => ⟨hkeys t ht, hheld t ht⟩
  · intro h
    exact .tables (fun t ht => (h t ht).keys) fun t ht => (h t ht).held

theorem map_fst_entryValues (t : Entries) : (entryValues t).map Prod.fst = t.map Prod.fst := by
  induction t with
  | nil => rfl
  | cons p t ih => rw [entryValues, List.map_cons, List.map_cons, ih]

mutual

/-- What a node becomes has distinct keys if the node has. -/
theorem Node.value_distinct : (n : Node) → n.Distinct → n.value.Distinct
  | .leaf _, .leaf hv => hv
  | .table _ t, .table hkeys hheld => .table (map_fst_entryValues t ▸ hkeys) (entryValues_distinct t hheld)
  | .tables ts, .tables hkeys hheld => .array (elementValues_distinct ts hkeys hheld)

theorem entryValues_distinct : (t : List (String × Node)) → (∀ p ∈ t, p.2.Distinct) →
    ∀ p ∈ entryValues t, p.2.Distinct
  | [], _ => nofun
  | (key, node) :: rest, h => by
    obtain ⟨hnode, hrest⟩ := List.forall_mem_cons.1 h
    exact List.forall_mem_cons.2 ⟨node.value_distinct hnode, entryValues_distinct rest hrest⟩

theorem elementValues_distinct : (ts : List (List (String × Node))) → (∀ t ∈ ts, (t.map Prod.fst).Nodup) →
    (∀ t ∈ ts, ∀ p ∈ t, p.2.Distinct) → ∀ v ∈ elementValues ts, v.Distinct
  | [], _, _ => nofun
  | t :: ts, hkeys, hheld => by
    obtain ⟨hkey, hkeys⟩ := List.forall_mem_cons.1 hkeys
    obtain ⟨hnodes, hheld⟩ := List.forall_mem_cons.1 hheld
    refine List.forall_mem_cons.2 ⟨?_, elementValues_distinct ts hkeys hheld⟩
    exact .table (map_fst_entryValues t ▸ hkey) (entryValues_distinct t hnodes)

end

theorem entryValues_keyed {t : Entries} (h : Keyed Node.Distinct t) : Keyed Value.Distinct (entryValues t) :=
  ⟨map_fst_entryValues t ▸ h.keys, entryValues_distinct t h.held⟩

/-! ## Tables being made -/

namespace Entries

/-- What is changed at the end of a path leaves keys distinct if the change does. -/
theorem change_keyed {dotted : Bool} {f : Origin → Entries → Option Entries}
    (hf : ∀ origin t t', Keyed Node.Distinct t → f origin t = some t' → Keyed Node.Distinct t') (path : List String)
    {origin : Origin} {t t' : Entries} (ht : Keyed Node.Distinct t) (h : change dotted f path origin t = some t') :
    Keyed Node.Distinct t' := by
  induction path generalizing origin t t' with
  | nil => exact hf origin t t' ht h
  | cons key path ih =>
    rw [change] at h
    split at h
    · obtain ⟨sub, hsub, hset⟩ := Option.bind_eq_some_iff.1 h
      cases hset
      exact ht.setKey (Node.distinct_table_iff.2 (ih .nil hsub))
    · cases h
    · next origin sub hfound =>
      split at h
      · cases h
      · obtain ⟨sub', hsub', hset⟩ := Option.bind_eq_some_iff.1 h
        cases hset
        have hsub := Node.distinct_table_iff.1 (ht.of_lookup hfound)
        exact ht.setKey (Node.distinct_table_iff.2 (ih hsub hsub'))
    · next elements hfound =>
      obtain ⟨last, hlast, h⟩ := Option.bind_eq_some_iff.1 h
      obtain ⟨last', hlast', hset⟩ := Option.bind_eq_some_iff.1 h
      cases hset
      have helements := Node.distinct_tables_iff.1 (ht.of_lookup hfound)
      have hnew := ih (helements last (List.mem_of_getLast? hlast)) hlast'
      refine ht.setKey (Node.distinct_tables_iff.2 fun u hu => ?_)
      rcases List.mem_append.1 hu with hu | hu
      · exact helements u (List.dropLast_subset _ hu)
      · rw [List.mem_singleton.1 hu]
        exact hnew

theorem add_keyed {path : List String} {key : String} {v : Value} {t t' : Entries} (ht : Keyed Node.Distinct t)
    (hv : v.Distinct) (h : t.add path key v = some t') : Keyed Node.Distinct t' := by
  refine change_keyed (fun origin t t' ht hadd => ?_) path ht h
  split at hadd
  · cases hadd
  · split at hadd
    · cases hadd
    · next hfree =>
      cases hadd
      exact ht.snoc (Option.not_isSome_iff_eq_none.1 hfree) (.leaf hv)

theorem openTable_keyed {path : List String} {key : String} {t t' : Entries} (ht : Keyed Node.Distinct t)
    (h : t.openTable path key = some t') : Keyed Node.Distinct t' := by
  refine change_keyed (fun origin t t' ht hopen => ?_) path ht h
  split at hopen
  · next hfree =>
    cases hopen
    exact ht.snoc hfree (Node.distinct_table_iff.2 .nil)
  · next sub hfound =>
    cases hopen
    have hsub := Node.distinct_table_iff.1 (ht.of_lookup hfound)
    exact ht.setKey (Node.distinct_table_iff.2 hsub)
  · cases hopen

theorem openElement_keyed {path : List String} {key : String} {t t' : Entries} (ht : Keyed Node.Distinct t)
    (h : t.openElement path key = some t') : Keyed Node.Distinct t' := by
  refine change_keyed (fun origin t t' ht hopen => ?_) path ht h
  split at hopen
  · next hfree =>
    cases hopen
    exact ht.snoc hfree (Node.distinct_tables_iff.2 (List.forall_mem_singleton.2 .nil))
  · next elements hfound =>
    cases hopen
    have helements := Node.distinct_tables_iff.1 (ht.of_lookup hfound)
    refine ht.setKey (Node.distinct_tables_iff.2 fun u hu => ?_)
    rcases List.mem_append.1 hu with hu | hu
    · exact helements u hu
    · rw [List.mem_singleton.1 hu]
      exact .nil
  · cases hopen

theorem addUnder_keyed {header path : List String} {key : String} {v : Value} {t t' : Entries}
    (ht : Keyed Node.Distinct t) (hv : v.Distinct) (h : t.addUnder header path key v = some t') :
    Keyed Node.Distinct t' :=
  change_keyed (fun _ _ _ ht hadd => add_keyed ht hv hadd) header ht h

end Entries

/-- The values that the statement gives have distinct keys. -/
def Statement.Distinct : Statement → Prop
  | .table _ => True
  | .element _ => True
  | .entry _ v => v.Distinct

theorem assemble_keyed {lines : List Statement} (hlines : ∀ line ∈ lines, line.Distinct) {header : List String}
    {t t' : Entries} (ht : Keyed Node.Distinct t) (h : assemble lines header t = some t') :
    Keyed Node.Distinct t' := by
  induction lines generalizing header t with
  | nil =>
    cases h
    exact ht
  | cons line rest ih =>
    obtain ⟨hline, hrest⟩ := List.forall_mem_cons.1 hlines
    cases line with
    | table path =>
      obtain ⟨key, -, h⟩ := Option.bind_eq_some_iff.1 h
      obtain ⟨t₁, hopen, h⟩ := Option.bind_eq_some_iff.1 h
      exact ih hrest (Entries.openTable_keyed ht hopen) h
    | element path =>
      obtain ⟨key, -, h⟩ := Option.bind_eq_some_iff.1 h
      obtain ⟨t₁, hopen, h⟩ := Option.bind_eq_some_iff.1 h
      exact ih hrest (Entries.openElement_keyed ht hopen) h
    | entry path v =>
      obtain ⟨key, -, h⟩ := Option.bind_eq_some_iff.1 h
      obtain ⟨t₁, hadd, h⟩ := Option.bind_eq_some_iff.1 h
      exact ih hrest (Entries.addUnder_keyed ht hline hadd) h

theorem inlineTable_keyed {pairs : List (List String × Value)} (hpairs : ∀ p ∈ pairs, p.2.Distinct) {t t' : Entries}
    (ht : Keyed Node.Distinct t) (h : inlineTable pairs t = some t') : Keyed Node.Distinct t' := by
  induction pairs generalizing t with
  | nil =>
    cases h
    exact ht
  | cons p rest ih =>
    obtain ⟨hp, hrest⟩ := List.forall_mem_cons.1 hpairs
    obtain ⟨key, -, h⟩ := Option.bind_eq_some_iff.1 h
    obtain ⟨t₁, hadd, h⟩ := Option.bind_eq_some_iff.1 h
    exact ih hrest (Entries.add_keyed ht hp hadd) h

/-! ## Reading -/

/-- All that the three readers of values give with this much fuel has distinct keys. -/
structure ReadsDistinct (fuel : Nat) : Prop where
  value : ∀ {levels cs v rest}, Toml.value fuel levels cs = some (v, rest) → v.Distinct
  arrayItems : ∀ {levels cs vs rest}, Toml.arrayItems fuel levels cs = some (vs, rest) → ∀ v ∈ vs, v.Distinct
  tablePairs : ∀ {levels cs pairs rest}, Toml.tablePairs fuel levels cs = some (pairs, rest) →
    ∀ p ∈ pairs, p.2.Distinct

theorem scalar_distinct {cs rest : List Char} {v : Value} (h : scalar cs = some (v, rest)) : v.Distinct := by
  unfold scalar at h
  split at h
  · cases h
    exact .boolean _
  · cases h
    exact .boolean _
  · split at h
    · cases h
      exact .dateTime _
    · split at h
      · cases h
        exact .float _
      · obtain ⟨p, -, hp⟩ := Option.map_eq_some_iff.1 h
        cases hp
        exact .integer _

theorem string_distinct {cs rest : List Char} {v : Value}
    (h : (string? cs).map (fun (text, rest) => (Value.string (.ofList text), rest)) = some (v, rest)) : v.Distinct := by
  obtain ⟨p, -, hp⟩ := Option.map_eq_some_iff.1 h
  cases hp
  exact .string _

/-- The readers call each other with less fuel. -/
theorem readsDistinct (fuel : Nat) : ReadsDistinct fuel := by
  induction fuel with
  | zero => exact ⟨nofun, nofun, nofun⟩
  | succ fuel ih =>
    refine ⟨?value, ?arrayItems, ?tablePairs⟩
    case value =>
      intro levels cs v rest h
      rw [Toml.value.eq_def] at h
      dsimp only at h
      split at h
      · cases h
      · cases h
      · obtain ⟨cs₁, -, h⟩ := Option.bind_eq_some_iff.1 h
        obtain ⟨⟨items, cs₂⟩, hitems, h⟩ := Option.bind_eq_some_iff.1 h
        cases h
        exact .array (ih.arrayItems hitems)
      · split at h
        · cases h
          exact Value.distinct_table_iff.2 .nil
        · obtain ⟨⟨pairs, cs₂⟩, hpairs, h⟩ := Option.bind_eq_some_iff.1 h
          obtain ⟨entries, hentries, h⟩ := Option.bind_eq_some_iff.1 h
          cases h
          have hkeyed := inlineTable_keyed (ih.tablePairs hpairs) .nil hentries
          exact Value.distinct_table_iff.2 (entryValues_keyed hkeyed)
      · exact string_distinct h
      · exact string_distinct h
      · exact scalar_distinct h
    case arrayItems =>
      intro levels cs vs rest h
      rw [Toml.arrayItems.eq_def] at h
      dsimp only at h
      split at h
      · cases h
      · cases h
        nofun
      · next hfuel _ =>
        cases hfuel
        obtain ⟨⟨v, cs₁⟩, hv, h⟩ := Option.bind_eq_some_iff.1 h
        obtain ⟨cs₂, -, h⟩ := Option.bind_eq_some_iff.1 h
        have hv := ih.value hv
        dsimp only at h
        split at h
        · cases h
          exact List.forall_mem_singleton.2 hv
        · obtain ⟨cs₃, -, h⟩ := Option.bind_eq_some_iff.1 h
          obtain ⟨⟨more, cs₄⟩, hmore, h⟩ := Option.bind_eq_some_iff.1 h
          cases h
          exact List.forall_mem_cons.2 ⟨hv, ih.arrayItems hmore⟩
        · cases h
    case tablePairs =>
      intro levels cs pairs rest h
      rw [Toml.tablePairs.eq_def] at h
      dsimp only at h
      obtain ⟨⟨path, cs₁⟩, -, h⟩ := Option.bind_eq_some_iff.1 h
      dsimp only at h
      split at h
      · obtain ⟨⟨v, cs₂⟩, hv, h⟩ := Option.bind_eq_some_iff.1 h
        have hv := ih.value hv
        dsimp only at h
        split at h
        · cases h
          exact List.forall_mem_singleton.2 hv
        · obtain ⟨⟨more, cs₃⟩, hmore, h⟩ := Option.bind_eq_some_iff.1 h
          cases h
          exact List.forall_mem_cons.2 ⟨hv, ih.tablePairs hmore⟩
        · cases h
      · cases h

theorem statement_distinct {cs rest : List Char} {line : Statement} (h : statement cs = some (line, rest)) :
    line.Distinct := by
  unfold statement at h
  split at h
  · obtain ⟨⟨path, cs₁⟩, -, h⟩ := Option.bind_eq_some_iff.1 h
    dsimp only at h
    split at h
    · obtain ⟨_, -, h⟩ := Option.map_eq_some_iff.1 h
      cases h
      trivial
    · cases h
  · obtain ⟨⟨path, cs₁⟩, -, h⟩ := Option.bind_eq_some_iff.1 h
    dsimp only at h
    split at h
    · obtain ⟨_, -, h⟩ := Option.map_eq_some_iff.1 h
      cases h
      trivial
    · cases h
  · obtain ⟨⟨path, cs₁⟩, -, h⟩ := Option.bind_eq_some_iff.1 h
    dsimp only at h
    split at h
    · obtain ⟨⟨v, cs₂⟩, hv, h⟩ := Option.bind_eq_some_iff.1 h
      obtain ⟨_, -, h⟩ := Option.map_eq_some_iff.1 h
      cases h
      exact (readsDistinct _).value hv
    · cases h

theorem statements_distinct {fuel : Nat} {cs : List Char} {lines : List Statement}
    (h : statements fuel cs = some lines) : ∀ line ∈ lines, line.Distinct := by
  induction fuel generalizing cs lines with
  | zero => cases h
  | succ fuel ih =>
    rw [statements] at h
    split at h
    · cases h
      nofun
    · exact ih h
    · exact ih h
    · obtain ⟨rest, -, h⟩ := Option.bind_eq_some_iff.1 h
      exact ih h
    · obtain ⟨⟨line, rest⟩, hline, h⟩ := Option.bind_eq_some_iff.1 h
      obtain ⟨more, hmore, h⟩ := Option.bind_eq_some_iff.1 h
      cases h
      exact List.forall_mem_cons.2 ⟨statement_distinct hline, ih hmore⟩

/-- **The keys of a document are distinct, at every level.** -/
theorem readDocument_keyed {cs : List Char} {doc : List (String × Value)} (h : readDocument cs = some doc) :
    Keyed Value.Distinct doc := by
  obtain ⟨lines, hlines, h⟩ := Option.bind_eq_some_iff.1 h
  obtain ⟨entries, hentries, h⟩ := Option.bind_eq_some_iff.1 h
  cases h
  exact entryValues_keyed (assemble_keyed (statements_distinct hlines) .nil hentries)

end Toml

end ScriptValues
