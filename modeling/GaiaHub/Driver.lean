import GaiaHub.Basic

/-!
# The driver interface

A driver stores the hub's objects (§4.1). The hub calls it through `DriverModel`: a write takes
the monitored stream, a rename, a delete or a read takes a path under a principal's top-level
directory, and a listing returns a page of names or of stat records with an optional cursor.
The backend is a `Store`; a write, rename or delete returns the store it leaves behind with its
result, so a driver that fails after changing its backend is a `DriverModel` too.

`DriverModel.FailureAtomic` is the contract the results about failed requests assume: a failing
write or rename leaves the store as it was, and a write completes only by reading its stream to
the end. `DriverModel.MovesObjects` is the contract of the runs: a rename moves an object, a write
stores its stream. `DriverModel.ReadsObjects` says that a read returns the object stored, and
`DoesNotExist` when there is none. `storeDriver` is the store model of the driver contract; it
keeps no list of keys, so its listing pages are empty (`Listing.lean` lists a store by the keys
it is given).
-/

namespace GaiaHub

/-- A stream as its reader sees it: the chunks it delivers, then its end, or the error it was
destroyed with. -/
structure Readable where
  chunks : List Chunk
  destroyedWith : Option HubError
  deriving DecidableEq, Repr

structure PerformWriteArgs where
  storageTopLevel : JsString
  path : JsString
  stream : Readable
  contentType : JsString
  contentLength : JsNumber
  deriving DecidableEq, Repr

structure PerformRenameArgs where
  path : JsString
  storageTopLevel : JsString
  newPath : JsString
  deriving DecidableEq, Repr

structure PerformDeleteArgs where
  storageTopLevel : JsString
  path : JsString
  deriving DecidableEq, Repr

structure PerformReadArgs where
  storageTopLevel : JsString
  path : JsString
  deriving DecidableEq, Repr

structure PerformListFilesArgs where
  pathPrefix : JsString
  page : Option JsString
  deriving DecidableEq, Repr

structure ListFileStatResult where
  name : JsString
  contentLength : Nat
  etag : JsString
  lastModifiedDate : Nat
  deriving DecidableEq, Repr

structure ListFilesResult (α : Type) where
  entries : List α
  page : Option JsString
  deriving DecidableEq, Repr

/-- The operations of a driver that the hub calls. -/
structure DriverModel where
  performWrite : Store → PerformWriteArgs → Store × Except HubError JsString
  performRename : Store → PerformRenameArgs → Store × Except HubError Unit
  performDelete : Store → PerformDeleteArgs → Store × Except HubError Unit
  performRead : Store → PerformReadArgs → Except HubError StoredObject
  listFiles : Store → PerformListFilesArgs → Except HubError (ListFilesResult JsString)
  listFilesStat :
    Store → PerformListFilesArgs → Except HubError (ListFilesResult ListFileStatResult)
  getReadURLPrefix : JsString

def PerformWriteArgs.object (args : PerformWriteArgs) : StoredObject :=
  ⟨args.stream.chunks.flatten, args.contentType⟩

def Store.move (st : Store) (a p p' : JsString) (o : StoredObject) : Store :=
  (st.erase a p).insert a p' o

@[simp] theorem Store.move_apply (st : Store) (a p p' : JsString) (o : StoredObject)
    (a' k : JsString) :
    st.move a p p' o a' k =
      if a' = a ∧ k = p' then some o else if a' = a ∧ k = p then none else st a' k := rfl

theorem Store.move_apply_of_ne {st : Store} {a p p' a' k : JsString} {o : StoredObject}
    (hk : ¬ (a' = a ∧ (k = p ∨ k = p'))) : st.move a p p' o a' k = st a' k := by
  rw [Store.move_apply, if_neg fun h => hk ⟨h.1, .inr h.2⟩, if_neg fun h => hk ⟨h.1, .inl h.2⟩]

/-- Modelled from the spec: the store model of the driver contract (§4.1; the drivers are not in
the sources), with read URLs under `readURL`. -/
def storeDriver (readURL : JsString) : DriverModel where
  performWrite st args :=
    match args.stream.destroyedWith with
    | some e => (st, .error e)
    | none => (st.insert args.storageTopLevel args.path args.object,
        .ok (readURL ++ args.storageTopLevel ++ '/' :: args.path))
  performRename st args :=
    match st args.storageTopLevel args.path with
    | some o => (st.move args.storageTopLevel args.path args.newPath o, .ok ())
    | none => (st, .error (.doesNotExist "File does not exist".toList))
  performDelete st args :=
    match st args.storageTopLevel args.path with
    | some _ => (st.erase args.storageTopLevel args.path, .ok ())
    | none => (st, .error (.doesNotExist "File does not exist".toList))
  performRead st args :=
    match st args.storageTopLevel args.path with
    | some o => .ok o
    | none => .error (.doesNotExist "File does not exist".toList)
  listFiles _ args := .ok ⟨[], args.page⟩
  listFilesStat _ args := .ok ⟨[], args.page⟩
  getReadURLPrefix := readURL

/-- The store contract of the archival runs (§4.1): a rename moves the object at its source to
its target, or fails and leaves the store as it was, failing with `DoesNotExist` only when there
is no object at the source; a write stores the stream it was given at its path, or fails and
leaves the store as it was. -/
structure DriverModel.MovesObjects (d : DriverModel) : Prop where
  rename : ∀ st args,
    (∃ o, st args.storageTopLevel args.path = some o ∧
      d.performRename st args =
        (st.move args.storageTopLevel args.path args.newPath o, .ok ())) ∨
    ∃ e, d.performRename st args = (st, .error e) ∧
      ∀ msg, e = .doesNotExist msg → st args.storageTopLevel args.path = none
  write : ∀ st args,
    (∃ url, d.performWrite st args =
      (st.insert args.storageTopLevel args.path args.object, .ok url)) ∨
    ∃ e, d.performWrite st args = (st, .error e)

/-- Modelled from the spec: a read returns the object stored at its path, and fails with
`DoesNotExist` when there is none (§4.1). -/
structure DriverModel.ReadsObjects (d : DriverModel) : Prop where
  read_some : ∀ st args o,
    st args.storageTopLevel args.path = some o → d.performRead st args = .ok o
  read_none : ∀ st args, st args.storageTopLevel args.path = none →
    ∃ msg, d.performRead st args = .error (.doesNotExist msg)

theorem storeDriver_movesObjects (readURL : JsString) : (storeDriver readURL).MovesObjects where
  rename st args := by
    cases h : st args.storageTopLevel args.path with
    | none =>
      exact .inr ⟨.doesNotExist "File does not exist".toList, by simp [storeDriver, h],
        fun _ _ => rfl⟩
    | some o => exact .inl ⟨o, rfl, by simp [storeDriver, h]⟩
  write st args := by
    cases h : args.stream.destroyedWith with
    | none =>
      exact .inl ⟨readURL ++ args.storageTopLevel ++ '/' :: args.path, by simp [storeDriver, h]⟩
    | some e => exact .inr ⟨e, by simp [storeDriver, h]⟩

end GaiaHub
