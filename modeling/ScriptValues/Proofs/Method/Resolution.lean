/-
What properties mean. Looking a property up (`resolve`), listing the names of a kind (`Kind.names`) and asking whether a
name is a method (`Kind.isMethod`) go by the same tables. `resolve_means` says once all that a lookup can do: it fails,
reads an attribute or binds a method, and it leaves the heap alone. So the names and `Kind.isMethod` tell beforehand
which of these it does, and how it fails (`resolve_by_tables`), and a method is bound as a function that was not there
(`isMethod_iff_binds`).
-/
import ScriptValues.Association
import ScriptValues.Heap.Equal
import ScriptValues.Proofs.Machine.Inventory
import ScriptValues.Property

namespace ScriptValues

/-- The attributes of values. -/
inductive HasAttribute (h : Heap) : Value → (name : String) → Value → Prop
  | strLen (s : String) : HasAttribute h (.str s) "len" (.ofNat (Text.length s.toList))
  | arrLen (c : Cell) : HasAttribute h (.arr c) "len" (.ofNat (h.contents c).size)
  | errorName (e : String) : HasAttribute h (.error e) "name" (.str e)
  | errorWithName (e : String) (info : Value) : HasAttribute h (.errorWith e info) "name" (.str e)
  | errorInfo (e : String) : HasAttribute h (.error e) "info" .null
  | errorWithInfo (e : String) (info : Value) : HasAttribute h (.errorWith e info) "info" info

/-- Values of the kind have no properties at all. -/
def Kind.Bare (k : Kind) : Prop := k = .null ∨ k = .bool ∨ k = .fn

instance (k : Kind) : Decidable k.Bare := inferInstanceAs (Decidable (_ ∨ _ ∨ _))

/-- The machine once a property has been asked for. -/
def Machine.asked (s : Machine) (v : Value) (name : String) : Machine :=
  { s with events := s.events.push (.resolve v.kind name) }

variable {v : Value} {name : String} {s : Machine} {i : Inventory}

theorem HasAttribute.isMethod {h : Heap} {w : Value} (hw : HasAttribute h v name w) :
    v.kind.isMethod name = some false := by
  have hstr : Kind.str.isMethod "len" = some false := by decide
  have harr : Kind.arr.isMethod "len" = some false := by decide
  have herrorName : Kind.error.isMethod "name" = some false := by decide
  have herrorInfo : Kind.error.isMethod "info" = some false := by decide
  cases hw <;> assumption

namespace Kind

variable {k : Kind}

theorem isMethod_eq_none_iff : k.isMethod name = none ↔ name ∉ k.names := lookup_eq_none_iff_not_mem_keys

theorem Bare.isMethod (hk : k.Bare) : k.isMethod name = none := by rcases hk with rfl | rfl | rfl <;> rfl

theorem not_bare {b : Bool} (hk : k.isMethod name = some b) : ¬ k.Bare := fun hbare => by
  rw [hbare.isMethod] at hk
  cases hk

theorem mem_names {b : Bool} (hk : k.isMethod name = some b) : name ∈ k.names :=
  Decidable.byContradiction fun hname => by
    rw [isMethod_eq_none_iff.2 hname] at hk
    cases hk

end Kind

/-! ## What a lookup does -/

/-- What a lookup goes on to do, by what the name is to the kind. -/
inductive Means (v : Value) (name : String) : Act Value → Prop
  | unsupported : v.kind.Bare → Means v name (throw (.unsupportedType v.kind name))
  | unknown : ¬ v.kind.Bare → v.kind.isMethod name = none → Means v name (throw (.unknownProperty v.kind name))
  | reads (read : Heap → Value) : v.kind.isMethod name = some false → (∀ h, HasAttribute h v name (read h)) →
      Means v name (do let s ← get; pure (read s.heap))
  | binds (b : Bound) : v.kind.isMethod name = some true → b.name = name → Means v name (Act.bindMethod b)

/-- As a property of the value, of that name, it is what it should be. -/
def Property.Fits {τ : Type} (v : Value) (target : τ) (name : String) : Property τ → Prop
  | .attribute read => ∀ h, HasAttribute h v name (read h target)
  | .method bind => (bind target).name = name

theorem Property.read_means {τ : Type} (k : Kind) (table : Table τ) (target : τ) (hv : v.kind = k) (hbare : ¬ k.Bare)
    (hkind : k.properties = table.map fun p => (p.1, p.2.isMethod)) (htable : ∀ p ∈ table, p.2.Fits v target p.1)
    (name : String) : Means v name (Property.read k table target name) := by
  subst hv
  have hmethod : v.kind.isMethod name = (table.lookup name).map isMethod := by
    rw [Kind.isMethod, hkind, lookup_map_values]
  have hfound : ∀ p, table.lookup name = some p → p.Fits v target name :=
    fun p hp => htable (name, p) (mem_of_lookup hp)
  unfold Property.read
  split
  · next hnone => exact .unknown hbare (by rw [hmethod, hnone, Option.map_none])
  · next read hread =>
    exact .reads (read · target) (by rw [hmethod, hread, Option.map_some, isMethod]) (hfound _ hread)
  · next bind hbind => exact .binds _ (by rw [hmethod, hbind, Option.map_some, isMethod]) (hfound _ hbind)

/-- **All that a lookup can do.** -/
theorem resolve_means (v : Value) (name : String) :
    ∃ t, Means v name t ∧ ∀ s, resolve v name s = t (s.asked v name) := by
  cases v with
  | null => exact ⟨_, .unsupported (.inl rfl), fun _ => rfl⟩
  | bool b => exact ⟨_, .unsupported (.inr (.inl rfl)), fun _ => rfl⟩
  | fn f => exact ⟨_, .unsupported (.inr (.inr rfl)), fun _ => rfl⟩
  | num n =>
    refine ⟨_, Property.read_means .num Property.num n rfl (by decide) rfl ?_ name, fun _ => rfl⟩
    simp [Property.num, Property.ofNum, Property.Fits, Bound.name]
  | str s =>
    refine ⟨_, Property.read_means .str Property.str s rfl (by decide) rfl ?_ name, fun _ => rfl⟩
    simp [Property.str, Property.ofStr, Property.Fits, Bound.name, HasAttribute.strLen]
  | arr c =>
    refine ⟨_, Property.read_means .arr Property.arr c rfl (by decide) rfl ?_ name, fun _ => rfl⟩
    simp [Property.arr, Property.ofArr, Property.ofCallback, Property.Fits, Bound.name, HasAttribute.arrLen]
  | error e =>
    refine ⟨_, Property.read_means .error Property.error (e, none) rfl (by decide) rfl ?_ name, fun _ => rfl⟩
    simp [Property.error, Property.Fits, HasAttribute.errorName, HasAttribute.errorInfo]
  | errorWith e info =>
    refine ⟨_, Property.read_means .error Property.error (e, some info) rfl (by decide) rfl ?_ name, fun _ => rfl⟩
    simp [Property.error, Property.Fits, HasAttribute.errorWithName, HasAttribute.errorWithInfo]

/-- The machine once a method has been bound. -/
def Machine.bound (s : Machine) (v : Value) (name : String) : Machine :=
  { s.asked v name with natives := s.natives + 1 }

/-- A method is bound to the value, whatever the machine. -/
theorem resolve_method (hmethod : v.kind.isMethod name = some true) :
    ∃ b : Bound, ∀ s, resolve v name s = .done (s.bound v name) (.fn (.native s.natives b)) := by
  obtain ⟨t, ht, heq⟩ := resolve_means v name
  cases ht with
  | unsupported hbare => exact absurd (hbare.isMethod.symm.trans hmethod) nofun
  | unknown hbare hnone => exact absurd (hnone.symm.trans hmethod) nofun
  | reads read hattribute hread => exact absurd (hattribute.symm.trans hmethod) nofun
  | binds b _ hname => exact ⟨b, heq⟩

/-! ## What the tables tell -/

/-- What a lookup does, and what the tables say of the name. -/
structure ResolvesByTables (s : Machine) (v : Value) (name : String) : Prop where
  unsupported : (∃ s', resolve v name s = .failed s' (.unsupportedType v.kind name)) ↔ v.kind.Bare
  unknown : (∃ s', resolve v name s = .failed s' (.unknownProperty v.kind name)) ↔
    ¬ v.kind.Bare ∧ name ∉ v.kind.names
  found : (∃ s' w, resolve v name s = .done s' w) ↔ ¬ v.kind.Bare ∧ name ∈ v.kind.names
  undefined : v.kind.isMethod name = none ↔ ∃ s' e, resolve v name s = .failed s' e
  read : v.kind.isMethod name = some false ↔
    ∃ s' w, resolve v name s = .done s' w ∧ HasAttribute s.heap v name w
  doneHeap : ∀ s' w, resolve v name s = .done s' w → s'.heap = s.heap
  failedHeap : ∀ s' e, resolve v name s = .failed s' e → s'.heap = s.heap

theorem resolve_by_tables (s : Machine) (v : Value) (name : String) : ResolvesByTables s v name := by
  obtain ⟨t, ht, heq⟩ := resolve_means v name
  cases ht with
  | unsupported hbare =>
    have hfailed : resolve v name s = .failed (s.asked v name) (.unsupportedType v.kind name) := heq s
    constructor <;> simp [hfailed, hbare, hbare.isMethod, Machine.asked]
  | unknown hbare hnone =>
    have hfailed : resolve v name s = .failed (s.asked v name) (.unknownProperty v.kind name) := heq s
    have hnames : name ∉ v.kind.names := Kind.isMethod_eq_none_iff.1 hnone
    constructor <;> simp [hfailed, hbare, hnone, hnames, Machine.asked]
  | reads read hattribute hread =>
    have hdone : resolve v name s = .done (s.asked v name) (read s.heap) := heq s
    have hnames := Kind.mem_names hattribute
    have hbare := Kind.not_bare hattribute
    constructor <;> simp [hdone, hbare, hattribute, hnames, hread, Machine.asked, and_assoc]
  | binds b hmethod hname =>
    have hdone : resolve v name s = .done (s.bound v name) (.fn (.native s.natives b)) := heq s
    have hnames := Kind.mem_names hmethod
    have hbare := Kind.not_bare hmethod
    have hnone : ∀ w, ¬ HasAttribute s.heap v name w := fun w hw => by
      rw [hw.isMethod] at hmethod
      cases hmethod
    constructor <;> simp [hdone, hbare, hmethod, hnames, hnone, Machine.asked, Machine.bound]

/-! ## New functions -/

/-- A name is a method exactly when looking it up yields a native function of that name that equals no function that was
there before. -/
theorem isMethod_iff_binds (hs : s.Accounted i) (hv : v.Known i) :
    v.kind.isMethod name = some true ↔
      ∃ s' n b, resolve v name s = .done s' (.fn (.native n b)) ∧ b.name = name ∧
        ∀ g : Fn, g.Known i → s'.heap.eq (.fn (.native n b)) (.fn g) = false := by
  obtain ⟨t, ht, heq⟩ := resolve_means v name
  cases ht with
  | unsupported hbare =>
    have hfailed : resolve v name s = .failed (s.asked v name) (.unsupportedType v.kind name) := heq s
    simp [hfailed, hbare.isMethod]
  | unknown hbare hnone =>
    have hfailed : resolve v name s = .failed (s.asked v name) (.unknownProperty v.kind name) := heq s
    simp [hfailed, hnone]
  | reads read hattribute hread =>
    have hdone : resolve v name s = .done (s.asked v name) (read s.heap) := heq s
    rw [hattribute, hdone]
    refine ⟨nofun, ?_⟩
    rintro ⟨s', n, b, hfn, -, hnew⟩
    -- What an error carries may be a native function, but one that was there.
    obtain ⟨rfl, hread'⟩ := Turn.done.inj hfn
    have hknown : Fn.Known i (.native n b) := by
      have hhas := hread s.heap
      rw [hread'] at hhas
      cases hhas
      exact hv
    have hsame : Fn.same (.native n b) (.native n b) = false := hnew _ hknown
    rw [Fn.same, beq_self_eq_true] at hsame
    cases hsame
  | binds b hmethod hname =>
    refine ⟨fun _ => ⟨_, _, b, heq s, hname, fun g hg => ?_⟩, fun _ => hmethod⟩
    cases g with
    | native n b' =>
      obtain ⟨hn, -⟩ := List.getElem?_eq_some_iff.1 hg
      have hne : s.natives ≠ n := by
        have hnatives := hs.natives
        omega
      exact beq_false_of_ne hne
    | script n => rfl

end ScriptValues
