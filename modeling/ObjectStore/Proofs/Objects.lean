import ObjectStore.Bucket.Writer
import ObjectStore.Emulator.Blobs
import ObjectStore.Proofs.Key
import ObjectStore.Proofs.Metadata

/-!
# Objects by key

To a caller a container is a finite map from keys to objects.  An `Object` is what can be read back
of a blob, and `Object.contents` is the map that a container stands for.  The blobs whose names are
not those of keys have no place in the map, and all others have one.
-/

namespace ObjectStore

open ObjectStore.Text (Bytes)

/-- What a caller sees of a blob: its bytes, and the headers and the metadata that were given. -/
structure Object where
  data : Bytes
  headers : BlobHeaders
  metadata : Metadata
deriving DecidableEq

/-- The object that a stored version of a blob holds. -/
def StoredBlob.object (version : StoredBlob) : Object :=
  ⟨version.data, version.headers, Metadata.unescape version.metadata⟩

namespace Object

/-- The object that a caller wants to be stored.  An empty type of content stands for none, and
without a hash of the content there is its MD5 hash. -/
def ofOptions (options : WriterOptions) (data : Bytes) : Object where
  data := data
  headers := { options.headers with
    contentType := options.headers.contentType.filter (· ≠ "")
    contentMd5 := some (options.headers.contentMd5.getD (Digest.Md5.hash data)) }
  metadata := options.metadata

/-- The object of a blob under its key, if the name of the blob is that of a key. -/
def keyed? (e : String × StoredBlob) : Option (String × Object) :=
  if Key.toName .whole (Key.ofName e.1) = e.1 then some (Key.ofName e.1, e.2.object) else none

/-- The objects that the blobs of a container hold, by key. -/
def contents (blobs : NameMap StoredBlob) : NameMap Object :=
  NameMap.ofList (blobs.entries.filterMap keyed?)

theorem keyed?_eq_some_iff {e : String × StoredBlob} {key : String} {object : Object} :
  keyed? e = some (key, object) ↔ e.1 = Key.toName .whole key ∧ e.2.object = object
  := by
  rw [keyed?]
  constructor
  · intro h
    split at h
    · next hname =>
      cases h
      exact ⟨hname.symm, rfl⟩
    · cases h
  · rintro ⟨hname, rfl⟩
    rw [hname, Key.ofName_toName, if_pos rfl]

theorem mem_filterMap_keyed?_iff {blobs : NameMap StoredBlob} {key : String} {object : Object} :
  (key, object) ∈ blobs.entries.filterMap keyed? ↔
    (blobs.get? (Key.toName .whole key)).map StoredBlob.object = some object
  := by
  rw [List.mem_filterMap, Option.map_eq_some_iff]
  constructor
  · rintro ⟨⟨name, version⟩, hmem, hkeyed⟩
    obtain ⟨rfl, rfl⟩ := keyed?_eq_some_iff.1 hkeyed
    exact ⟨version, NameMap.mem_entries_iff.1 hmem, rfl⟩
  · rintro ⟨version, hget, rfl⟩
    exact ⟨_, NameMap.mem_entries_iff.2 hget, keyed?_eq_some_iff.2 ⟨rfl, rfl⟩⟩

theorem keys_nodup (blobs : NameMap StoredBlob) :
  ((blobs.entries.filterMap keyed?).map (·.1)).Nodup
  := by
  rw [List.Nodup, List.pairwise_map]
  apply blobs.ascending.filterMap
  rintro e e' hlt ⟨key, object⟩ hkeyed ⟨key', object'⟩ hkeyed' rfl
  rw [(keyed?_eq_some_iff.1 hkeyed).1, (keyed?_eq_some_iff.1 hkeyed').1] at hlt
  apply String.lt_irrefl _ hlt

/-- The object at a key is what the blob of the key holds. -/
@[simp]
theorem get?_contents (blobs : NameMap StoredBlob) (key : String) :
  (contents blobs).get? key = (blobs.get? (Key.toName .whole key)).map StoredBlob.object
  := by
  apply Option.ext
  intro object
  rw [contents, NameMap.get?_ofList (keys_nodup blobs),
    NameMap.lookup_eq_some_iff (keys_nodup blobs), mem_filterMap_keyed?_iff]

theorem contents_insert (blobs : NameMap StoredBlob) (key : String) (version : StoredBlob) :
  contents (blobs.insert (Key.toName .whole key) version) =
    (contents blobs).insert key version.object
  := by
  apply NameMap.ext_get?
  intro other
  simp only [get?_contents, NameMap.get?_insert, Key.toName_inj]
  split <;> rfl

theorem contents_erase (blobs : NameMap StoredBlob) (key : String) :
  contents (blobs.erase (Key.toName .whole key)) = (contents blobs).erase key
  := by
  apply NameMap.ext_get?
  intro other
  simp only [get?_contents, NameMap.get?_erase, Key.toName_inj]
  split <;> rfl

end Object

end ObjectStore
