import NodeStore.Proofs.Frame.Sound

/-!
# Operations on one attribute

Many operations read or write one attribute of one instance: by name, by handle, through an opened
instance, and there by a key as well. `Op.access?` tells the access such an operation makes,
`Op.target?` the coordinate it makes it at.

* `Frame.perform_write`: a write that succeeds is its access at its target.
* `Frame.perform_read_congr`: a read answers alike in two frames if its access does at its target.
* `Frame.reads_of_models`: every read at a coordinate is a look at its cell.
-/

namespace NodeStore

/-- Whether the access leaves all values as they are. -/
def Access.isRead : Access → Bool
  | .get _ | .getSlots | .getList | .listLength => true
  | .set .. | .setSlots _ | .setSlotsAt .. | .append _ | .setList _ => false

namespace Frame

/-- The coordinate the access is made at, if the names and the index lead to one. -/
def Op.target? (f : Frame) : Op → Option Coord
  | .access schema index attr _ => (f.coord schema index attr).toOption
  | .accessBy h index _ => some (h.coord index)
  | .node schema index call => do
    let (attr, _) ← call.access?
    let n ← (f.node schema index).toOption
    (n.coord attr f).toOption
  | _ => none

variable {f g : Frame} {op : Op} {a : Access} {x : Answer} {c : Coord} {n : Node}

/-! ## Writes -/

/-- A write by a key that succeeds is the write at the coordinate of the key's attribute. -/
theorem keyed_write {k : Key} {w : Coord → Action Store Unit} {y : Action Frame Answer}
    (hy : y = (do
        let _ ← Action.read (n.requireKey k)
        let c ← Action.read (n.coord k.attr)
        write c (w c)) >>= fun _ => pure .done)
    (hok : (y f).result = .ok x) :
    ∃ c, n.coord k.attr f = .ok c ∧ y f = (write c (w c) >>= fun _ => pure Answer.done) f := by
  subst hy
  obtain ⟨_, hok, -⟩ := Action.bind_ok.1 hok
  obtain ⟨_, hk, hok⟩ := Action.read_bind_ok.1 hok
  obtain ⟨c, hc, -⟩ := Action.read_bind_ok.1 hok
  exact ⟨c, hc, by simp [Action.bind_apply, hk, hc]⟩

/-- A write by a key of the instance's schema is the write of the key's attribute. -/
theorem keyed_eq {k : Key} {s : Schema} {call : Node.Call} (hkey : n.requireKey k f = .ok s)
    (w : Coord → Action Store Unit)
    (hcall : n.perform call = (do
        let _ ← Action.read (n.requireKey k)
        let c ← Action.read (n.coord k.attr)
        write c (w c)) >>= fun _ => pure .done)
    (ha : ∀ c, a.perform c = (write c (w c) >>= fun _ => pure .done)) :
    n.perform call f = n.perform (.access k.attr a) f := by
  have haccess : n.perform (.access k.attr a) =
      (Action.read (n.coord k.attr) >>= fun c => a.perform c) := rfl
  rw [hcall, haccess]
  cases hc : n.coord k.attr f <;> simp [Action.bind_apply, hkey, hc, ha]

theorem call_write {call : Node.Call} {attr : String} (ha : call.access? = some (attr, a))
    (hw : a.isRead = false) (hok : (n.perform call f).result = .ok x) :
    ∃ c, n.coord attr f = .ok c ∧ n.perform call f = a.perform c f := by
  cases call with
  | access attr a =>
    cases ha
    obtain ⟨c, hc, -⟩ := Action.read_bind_ok.1 hok
    exact ⟨c, hc, by simp [Node.perform, Action.bind_apply, hc]⟩
  | write k y =>
    cases ha
    exact keyed_write rfl hok
  | writeSlots k ys =>
    cases ha
    exact keyed_write rfl hok
  | push k y =>
    cases ha
    exact keyed_write rfl hok
  | read k => cases ha; cases hw
  | readSlots k => cases ha; cases hw
  | readList k => cases ha; cases hw
  | _ => cases ha

/-- An access by names is the access at the coordinate they lead to. -/
theorem perform_access {schema attr : String} {index : Nat}
    (hc : f.coord schema index attr = .ok c) (a : Access) :
    perform (.access schema index attr a) f = a.perform c f := by
  simp [perform, Action.bind_apply, hc]

/-- A write that succeeds is its access at its target. -/
theorem perform_write (ha : op.access? = some a) (hw : a.isRead = false)
    (hok : (perform op f).result = .ok x) :
    ∃ c, op.target? f = some c ∧ perform op f = a.perform c f := by
  cases op with
  | access schema index attr a =>
    cases ha
    obtain ⟨c, hc, -⟩ := Action.read_bind_ok.1 hok
    exact ⟨c, by rw [Op.target?, hc]; rfl, perform_access hc a⟩
  | accessBy h index a =>
    cases ha
    exact ⟨h.coord index, rfl, rfl⟩
  | node schema index call =>
    obtain ⟨n, hn, hok⟩ := Action.read_bind_ok.1 hok
    obtain ⟨⟨attr, a⟩, hcall, rfl⟩ := Option.map_eq_some_iff.1 ha
    obtain ⟨c, hc, heq⟩ := call_write hcall hw hok
    refine ⟨c, by simp [Op.target?, hcall, hn, hc, Except.toOption], ?_⟩
    simp [perform, Action.bind_apply, hn, heq]
  | _ => cases ha

/-! ## Reads -/

section
variable (hschemas : g.schemas = f.schemas)
include hschemas

theorem coord_congr (schema : String) (index : Nat) (attr : String) :
    g.coord schema index attr = f.coord schema index attr := by
  simp only [coord, handle, Frame.schema, schema?, hschemas]

theorem node_congr (hcounts : ∀ id, g.count id = f.count id) (schema : String) (index : Nat) :
    g.node schema index = f.node schema index := by
  simp only [node, requireIndex, Frame.schema, schema?, schemaAt?, hschemas, hcounts]

theorem nodeCoord_congr (n : Node) (attr : String) : n.coord attr g = n.coord attr f := by
  simp only [Node.coord, schemaAt, schemaAt?, hschemas]

theorem requireKey_congr (n : Node) (k : Key) : n.requireKey k g = n.requireKey k f := by
  simp only [Node.requireKey, schemaAt, schemaAt?, hschemas]

/-- A read by a key answers alike if the look at the coordinate of the key's attribute does. -/
theorem keyed_congr {α β : Type} {k : Key} {lookf lookg : Coord → Except FrameError α}
    {convert : Schema → α → Except FrameError β}
    (h : ∀ c, n.coord k.attr f = .ok c → lookg c = lookf c) :
    (do
      let schema ← n.requireKey k g
      convert schema (← lookg (← n.coord k.attr g))) =
    (do
      let schema ← n.requireKey k f
      convert schema (← lookf (← n.coord k.attr f))) := by
  simp only [requireKey_congr hschemas, nodeCoord_congr hschemas]
  cases hc : n.coord k.attr f with
  | ok c => simp only [Except.ok_bind, h c hc]
  | error e => rfl

end

/-- Reading through an opened instance. -/
theorem call_read_congr (hschemas : g.schemas = f.schemas) {call : Node.Call} {attr : String}
    (ha : call.access? = some (attr, a)) (hr : a.isRead = true)
    (h : ∀ c, n.coord attr f = .ok c → (a.perform c g).result = (a.perform c f).result) :
    (n.perform call g).result = (n.perform call f).result := by
  cases call with
  | access attr a =>
    cases ha
    simp only [Node.perform, Action.bind_apply, Action.read_apply, nodeCoord_congr hschemas]
    cases hc : n.coord attr f with
    | ok c => exact h c hc
    | error e => rfl
  | read k =>
    cases ha
    have hread : n.read k g = n.read k f := keyed_congr hschemas fun c hc =>
      Except.map_injective (fun _ _ => Answer.value.inj) (h c hc)
    rw [Node.perform, Action.read_apply, Action.read_apply, hread]
  | readSlots k =>
    cases ha
    have hread : n.readSlots k g = n.readSlots k f := keyed_congr hschemas fun c hc =>
      Except.map_injective (fun _ _ => Answer.values.inj) (h c hc)
    rw [Node.perform, Action.read_apply, Action.read_apply, hread]
  | readList k =>
    cases ha
    have hread : n.readList k g = n.readList k f := keyed_congr hschemas fun c hc =>
      Except.map_injective (fun _ _ => Answer.values.inj) (h c hc)
    rw [Node.perform, Action.read_apply, Action.read_apply, hread]
  | write k y => cases ha; cases hr
  | writeSlots k ys => cases ha; cases hr
  | push k y => cases ha; cases hr
  | _ => cases ha

/-- A read answers alike in frames of the same schemas and counts if its access at its target
does. -/
theorem perform_read_congr (hschemas : g.schemas = f.schemas)
    (hcounts : ∀ id, g.count id = f.count id) (ha : op.access? = some a) (hr : a.isRead = true)
    (h : ∀ c, op.target? f = some c → (a.perform c g).result = (a.perform c f).result) :
    (perform op g).result = (perform op f).result := by
  cases op with
  | access schema index attr a =>
    cases ha
    simp only [perform, Action.bind_apply, Action.read_apply, coord_congr hschemas]
    cases hc : f.coord schema index attr with
    | ok c => exact h c (by rw [Op.target?, hc]; rfl)
    | error e => rfl
  | accessBy k index a =>
    cases ha
    exact h _ rfl
  | node schema index call =>
    obtain ⟨⟨attr, a⟩, hcall, rfl⟩ := Option.map_eq_some_iff.1 ha
    simp only [perform, Action.bind_apply, Action.read_apply, node_congr hschemas hcounts]
    cases hn : f.node schema index with
    | ok n =>
      refine call_read_congr hschemas hcall hr fun c hc => h c ?_
      simp [Op.target?, hcall, hn, hc, Except.toOption]
    | error e => rfl
  | _ => cases ha

/-! ## The values at a coordinate -/

variable {schema : Schema} {attr : Attribute} {vs : List Value} {ts : List Table} {t : Table}

/-- Reading the attribute at the coordinate is a look at these values. -/
structure Reads (f : Frame) (c : Coord) (schema : Schema) (attr : Attribute) (vs : List Value) :
    Prop where
  get : attr.isList = false → ∀ slot, (Access.perform c (.get slot) f).result =
    match vs[slot]? with
    | some v => .ok (.value v)
    | none => .error (.slotOutOfRange schema.name attr.name slot vs.length)
  getSlots : attr.isList = false → (Access.perform c .getSlots f).result = .ok (.values vs)
  getList : attr.isList = true → (Access.perform c .getList f).result = .ok (.values vs)
  listLength : attr.isList = true → (Access.perform c .listLength f).result = .ok (.count vs.length)

theorem reads_of_models (hts : f.store.Models ts) (ht : ts[c.schema]? = some t)
    (hattr : t.schema.attributes[c.attr]? = some attr) (hindex : c.index < t.count) :
    f.Reads c t.schema attr (t.cell c) := by
  have hlocate : t.locate c attr.shape = .ok attr := Schema.locate_ok.2 ⟨hattr, hindex, rfl⟩
  have hpool := Tables.pool_ok.2 ht
  have hsound := hts.sound t (List.mem_of_getElem? ht)
  refine ⟨?_, ?_, ?_, ?_⟩
  · intro hfixed slot
    rw [Attribute.shape_eq_fixed.2 hfixed] at hlocate
    have hlen := hsound.length_cell hlocate
    simp only [Access.perform, Action.read_apply, hts.get, Tables.look, hpool, Table.get, hlocate,
      Schema.requireSlot, ← hlen, Except.ok_bind]
    by_cases hslot : slot < (t.cell c).length
    · simp [hslot]
    · simp [hslot]
  · intro hfixed
    rw [Attribute.shape_eq_fixed.2 hfixed] at hlocate
    simp only [Access.perform, Action.read_apply, hts.getSlots, Tables.look, hpool, Table.getSlots,
      hlocate, Except.ok_bind]
    rfl
  · intro hlist
    rw [Attribute.shape_eq_list.2 hlist] at hlocate
    simp only [Access.perform, Action.read_apply, hts.getList, Tables.look, hpool, Table.getList,
      hlocate, Except.ok_bind]
    rfl
  · intro hlist
    rw [Attribute.shape_eq_list.2 hlist] at hlocate
    simp only [Access.perform, Action.read_apply, hts.listLength, Tables.look, hpool,
      Table.listLength, hlocate, Except.ok_bind]
    rfl

end Frame

end NodeStore
