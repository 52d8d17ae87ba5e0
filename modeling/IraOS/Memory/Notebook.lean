import IraOS.Memory.Retention

/-!
# The memory as a notebook

What the manager is for: a notebook with a record under every id, and each operation a line of it
read, written or struck out at one moment. An operation's body does to the store what it says it
does to the notebook (`does_body`), the answer and the event included; an index that has gone wrong
under a renaming makes no difference, for the notebook is what is stored under the ids.

`Does` is the meaning of each operation, in terms of the notebook alone: what is answered, which
event is announced, what the notebook is afterwards, and when the operation is refused. It says
nothing of indexes, of the lock, or of how records are found. What a listing returns is any order of
the records, as the set of ids behind it has none (`Lists`).

The one operation that says more than it seems to is `update`, for the fields it writes may be the
id: then the record moves, and what was stored under the new id is gone. It announces the record as
it is afterwards, with the id that was asked for in the payload.

The connection needs that every record is stored under its own id, which holds along every history,
clashes included (`Memory.SearchOrder`, `Memory.Retention`).
-/

set_option autoImplicit false

namespace IraOS

open Lib MemoryManager

abbrev Notebook := String → Option MemoryRecord

def MemoryIndex.contents (index : MemoryIndex) : Notebook := index.byId.get?

/-- The id of the record an operation is about, if it has to be there already. -/
def MemoryManager.Op.target : Op → Option String
  | .recall memoryId | .forget memoryId | .delete memoryId | .update memoryId _ => some memoryId
  | .replace record => some record.id
  | .remember _ | .clear | .read _ => none

namespace Notebook

def empty : Notebook := fun _ => none

def put (nb : Notebook) (r : MemoryRecord) : Notebook := Function.update nb r.id (some r)

def strike (nb : Notebook) (id : String) : Notebook := Function.update nb id none

structure Lists (nb : Notebook) (records : List MemoryRecord) : Prop where
  nodup : (records.map (·.id)).Nodup
  mem_iff : ∀ r, r ∈ records ↔ nb r.id = some r

/-- What an operation comes to at the moment `now`: its answer, with the event, and the notebook
after it. -/
inductive Does (now : Int) (nb : Notebook) :
    Op → Except Exn (Reply × Option MemoryEvent) → Notebook → Prop
  | remember {r : MemoryRecord} (h : nb r.id = none) :
      Does now nb (.remember r) (.ok (.unit, some (.about .memoryStored r))) (nb.put r)
  | duplicate {r r' : MemoryRecord} (h : nb r.id = some r') :
      Does now nb (.remember r) (.error ⟨.duplicateMemory,
        lit ("Memory record with id '" ++ r.id ++ "' already exists.")⟩) nb
  | missing {op : Op} {id : String} (hop : op.target = some id) (h : nb id = none) :
      Does now nb op (.error (MemoryStore.missing id)) nb
  | recall {id : String} {r : MemoryRecord} (h : nb id = some r) :
      Does now nb (.recall id)
        (.ok (.record (r.withAccess now), some (.about .memoryAccessed r)))
        (nb.put (r.withAccess now))
  | forget {id : String} {r : MemoryRecord} (h : nb id = some r) :
      Does now nb (.forget id) (.ok (.unit, some (.about .memoryForgotten r))) (nb.strike id)
  | delete {id : String} {r : MemoryRecord} (h : nb id = some r) :
      Does now nb (.delete id) (.ok (.unit, some (.about .memoryDeleted r))) (nb.strike id)
  | update {id : String} {fields : UpdateFields} {r u : MemoryRecord} (h : nb id = some r)
      (hu : r.withUpdate fields now = .ok u) :
      Does now nb (.update id fields)
        (.ok (.record u, some { MemoryEvent.about .memoryUpdated u with payloadId := id }))
        ((nb.strike id).put u)
  | refused {id : String} {fields : UpdateFields} {r : MemoryRecord} {e : Exn}
      (h : nb id = some r) (hu : r.withUpdate fields now = .error e) :
      Does now nb (.update id fields) (.error e) nb
  | replace {r r' : MemoryRecord} (h : nb r.id = some r') :
      Does now nb (.replace r) (.ok (.unit, some (.about .memoryUpdated r))) (nb.put r)
  | clear : Does now nb .clear (.ok (.unit, none)) empty
  | read {look : Int → List MemoryRecord → Reply} {records : List MemoryRecord}
      (h : nb.Lists records) : Does now nb (.read look) (.ok (look now records, none)) nb

theorem put_strike (nb : Notebook) (r : MemoryRecord) : (nb.strike r.id).put r = nb.put r := by
  simp [put, strike]

end Notebook

namespace MemoryIndex

variable {index : MemoryIndex}

@[simp] theorem contents_empty : ({} : MemoryIndex).contents = Notebook.empty := by
  funext id
  rfl

@[simp] theorem contents_add (index : MemoryIndex) (r : MemoryRecord) :
    (index.add r).contents = index.contents.put r := by
  funext id
  simp only [contents, Notebook.put, add_get?, Function.update_apply]

@[simp] theorem contents_remove (index : MemoryIndex) (id : String) :
    (index.remove id).contents = index.contents.strike id := by
  funext id'
  simp only [contents, Notebook.strike, remove_get?, Function.update_apply]

@[simp] theorem contents_update (index : MemoryIndex) (old new : MemoryRecord) :
    (index.update old new).contents = (index.contents.strike old.id).put new := by
  simp [MemoryIndex.update]

theorem contents_removeAll (ids : List String) (id : String) :
    (ids.foldl MemoryIndex.remove index).contents id =
      if id ∈ ids then none else index.contents id := by
  induction ids generalizing index with
  | nil => simp
  | cons i ids ih =>
    rw [List.foldl_cons, ih, contents_remove, Notebook.strike, Function.update_apply]
    by_cases hid : id = i <;> simp [hid]

theorem contents_clear {order : List String} (h : order.Perm index.byId.keys) :
    (order.foldl MemoryIndex.remove index).contents = Notebook.empty := by
  funext id
  rw [contents_removeAll, Notebook.empty]
  split
  · rfl
  · next hnot =>
    rw [h.mem_iff, Dict.mem_keys_iff] at hnot
    simpa [contents, Option.eq_none_iff_forall_ne_some] using hnot

theorem OwnIds.lists (h : index.OwnIds) {order : List String}
    (horder : order.Perm index.byId.keys) :
    index.contents.Lists (MemoryStore.list order index) where
  nodup := h.nodup (list_perm horder)
  mem_iff r := by
    rw [(list_perm horder).mem_iff, h.mem_values]
    rfl

end MemoryIndex

namespace MemoryStore

variable {index : MemoryIndex} {id : String} {r r' : MemoryRecord}

theorem get_of (h : index.contents id = some r) : get id index = ⟨.ok r, index, []⟩ := by
  rcases get_run id index with ⟨record, hget, hrun⟩ | ⟨hnone, -⟩
  · rw [hrun, Option.some.inj (hget.symm.trans h)]
  · cases hnone.symm.trans h

theorem get_of_none (h : index.contents id = none) :
    get id index = ⟨.error (missing id), index, []⟩ := by
  rcases get_run id index with ⟨record, hget, -⟩ | ⟨-, hrun⟩
  · cases hget.symm.trans h
  · exact hrun

theorem add_of (h : index.contents r.id = none) : add r index = ⟨.ok (), index.add r, []⟩ := by
  rw [MemoryIndex.contents] at h
  rw [add_str, Act.bind_get, if_neg (by simp [Dict.contains, h])]
  rfl

theorem add_of_some (h : index.contents r.id = some r') : add r index =
    ⟨.error ⟨.duplicateMemory, lit ("Memory record with id '" ++ r.id ++ "' already exists.")⟩,
      index, []⟩ := by
  rw [add_str, Act.bind_get, if_pos (Dict.contains_iff.mpr ⟨r', h⟩)]
  rfl

theorem delete_of (h : index.contents id = some r) :
    delete id index = ⟨.ok (), index.remove id, []⟩ := by
  rw [delete_str, Act.bind_get, if_pos (Dict.contains_iff.mpr ⟨r, h⟩)]
  rfl

theorem replace_of (h : index.contents r.id = some r') :
    replace r index = ⟨.ok (), index.update r' r, []⟩ := by
  rw [replace, Act.run_bind_of_ok (get_of h), indexUpdate_str]
  rfl

end MemoryStore

namespace MemoryManager

open MemoryIndex MemoryStore

variable {index : MemoryIndex} {order : List String}

theorem about_own {id : String} {r : MemoryRecord} (h : r.id = id) (type : MemoryEventType) :
    { MemoryEvent.about type r with payloadId := id, memoryId := id } = .about type r := by
  subst h
  rfl

/-- **An operation does to the store what it does to the notebook**, and answers and announces what
it should. -/
theorem does_body (hown : index.OwnIds) (horder : order.Perm index.byId.keys) (now : Int)
    (op : Op) : Notebook.Does now index.contents op (op.body now order index).result
      (op.body now order index).state.contents := by
  -- whatever is to be there, is not
  have hmissing : ∀ {id : String}, op.target = some id → index.contents id = none →
      op.body now order index = ⟨.error (missing id), index, []⟩ →
      Notebook.Does now index.contents op (op.body now order index).result
        (op.body now order index).state.contents := by
    intro id hop hnone hrun
    rw [hrun]
    exact .missing hop hnone
  cases op with
  | remember r =>
    cases hget : index.contents r.id with
    | some r' =>
      rw [Op.body, Act.run_bind_of_error (add_of_some hget)]
      exact .duplicate hget
    | none =>
      rw [Op.body, Act.run_bind_of_ok (add_of hget)]
      simpa using .remember hget
  | «recall» id =>
    cases hget : index.contents id with
    | none => exact hmissing rfl hget (Act.run_bind_of_error (get_of_none hget))
    | some r =>
      have hid : r.id = id := hown id r hget
      have hreplace : replace (r.withAccess now) index =
          ⟨.ok (), index.update r (r.withAccess now), []⟩ := replace_of (hid ▸ hget)
      rw [Op.body, Act.run_bind_of_ok (get_of hget), Act.run_bind_of_ok hreplace]
      have hput : (index.contents.strike r.id).put (r.withAccess now) =
          index.contents.put (r.withAccess now) := Notebook.put_strike _ (r.withAccess now)
      simpa [about_own hid, hput] using .recall hget
  | forget id =>
    cases hget : index.contents id with
    | none => exact hmissing rfl hget (Act.run_bind_of_error (get_of_none hget))
    | some r =>
      rw [Op.body, Act.run_bind_of_ok (get_of hget), Act.run_bind_of_ok (delete_of hget)]
      simpa [about_own (hown id r hget)] using .forget hget
  | delete id =>
    cases hget : index.contents id with
    | none => exact hmissing rfl hget (Act.run_bind_of_error (get_of_none hget))
    | some r =>
      rw [Op.body, Act.run_bind_of_ok (get_of hget), Act.run_bind_of_ok (delete_of hget)]
      simpa [about_own (hown id r hget)] using .delete hget
  | update id fields =>
    cases hget : index.contents id with
    | none =>
      have hupdate : MemoryStore.update id fields now index =
          ⟨.error (missing id), index, []⟩ := Act.run_bind_of_error (get_of_none hget)
      exact hmissing rfl hget (Act.run_bind_of_error hupdate)
    | some r =>
      cases hu : r.withUpdate fields now with
      | error e =>
        have hupdate : MemoryStore.update id fields now index = ⟨.error e, index, []⟩ := by
          rw [MemoryStore.update, Act.run_bind_of_ok (get_of hget), hu]
          rfl
        rw [Op.body, Act.run_bind_of_error hupdate]
        exact .refused hget hu
      | ok u =>
        have hupdate : MemoryStore.update id fields now index =
            ⟨.ok u, index.update r u, []⟩ := by
          rw [MemoryStore.update, Act.run_bind_of_ok (get_of hget), hu, Act.bind_ofExcept,
            indexUpdate_str]
          rfl
        rw [Op.body, Act.run_bind_of_ok hupdate]
        simpa [hown id r hget] using .update hget hu
  | replace r =>
    cases hget : index.contents r.id with
    | none =>
      have hreplace : replace r index = ⟨.error (missing r.id), index, []⟩ :=
        Act.run_bind_of_error (get_of_none hget)
      exact hmissing rfl hget (Act.run_bind_of_error hreplace)
    | some r' =>
      rw [Op.body, Act.run_bind_of_ok (replace_of hget)]
      simpa [hown r.id r' hget, Notebook.put_strike] using .replace hget
  | clear =>
    have hclear : Op.clear.body now order index =
        ⟨.ok (.unit, none), order.foldl MemoryIndex.remove index, []⟩ := by
      rw [Op.body, clear_str]
      rfl
    rw [hclear, contents_clear horder]
    exact .clear
  | read look => exact .read (hown.lists horder)

end MemoryManager

end IraOS
