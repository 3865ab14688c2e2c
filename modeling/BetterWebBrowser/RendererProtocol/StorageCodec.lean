import BetterWebBrowser.RendererProtocol.Messages
import BetterWebBrowser.RendererProtocol.RuntimeSize
import BetterWebBrowser.Storage.QuotaBytes

/-!
# Codec of the Web Storage messages

The payloads of a write, of one entry of a snapshot and of a synchronization record. Strings
travel as UTF-16 code units, numbers in the widths they have on the wire; the checks are those
of the storage values.
-/

namespace BetterWebBrowser.RendererProtocol

open Framework Storage

def MAX_STORAGE_KEY_BYTES : Nat := MAX_STORAGE_BYTES_PER_ORIGIN
def MAX_STORAGE_VALUE_BYTES : Nat := MAX_STORAGE_BYTES_PER_ORIGIN

/-! ## Strings on the wire -/

namespace WireWriter

/-- The code units of a string behind the number of their bytes. -/
def unitsLayout (value : StorageString) : List UInt8 :=
  u32 (UInt32.ofNat (value.units.length * 2)) ++
    value.units.flatMap fun unit => u16 (UInt16.ofNat unit.val)

def storageString (value : StorageString) : ProtocolResult (List UInt8) :=
  if value.units.length * 2 < 2 ^ 32 then .ok (unitsLayout value)
  else .error (.InvalidPayload "storage string length")

end WireWriter

namespace WireReader

/-- `chunks_exact(2)` with each pair read as a little-endian unit. -/
def unitsOfBytes : List UInt8 → List (Fin 65536)
  | low :: high :: bytes => Fin.ofNat 65536 (fromLittleEndian [low, high]) :: unitsOfBytes bytes
  | _ => []

def storageString (maximum : Nat) : WireReader StorageString := do
  let length := (← u32).toNat
  Reader.failIf (length > maximum * 2 ∨ length % 2 ≠ 0)
    (.InvalidPayload "storage string budget or encoding")
  let bytes ← take length
  pure ⟨unitsOfBytes bytes⟩

/-- The reader at the end of the payload. -/
def finish : WireReader Unit := fun input =>
  if input = [] then .ok ((), input) else .error (.InvalidPayload "trailing wire bytes")

/-- What a decoder makes of a whole payload. -/
def payload {A : Type} (decoder : WireReader A) (bytes : List UInt8) : ProtocolResult A :=
  (decoder bytes).map Prod.fst

end WireReader

namespace StorageCodec

open RuntimeCodec

/-! ## Messages -/

structure StorageMutation where
  area : StorageAreaKind
  expectedVersion : UInt64
  operation : StorageOperation
deriving DecidableEq

structure StorageMutationRequest where
  document : DocumentId
  sequence : UInt64
  sourceUrl : Str
  mutation : StorageMutation
deriving DecidableEq

structure StorageEntry where
  key : StorageString
  value : StorageString
deriving DecidableEq

structure StorageSnapshotEntry where
  document : DocumentId
  area : StorageAreaKind
  entry : StorageEntry
deriving DecidableEq

structure StorageChange where
  version : UInt64
  key : Option StorageString
  oldValue : Option StorageString
  newValue : Option StorageString
deriving DecidableEq

structure StorageUpdate where
  area : StorageAreaKind
  version : UInt64
  acknowledgement : UInt64
  change : Option StorageChange
  sourceUrl : Str
deriving DecidableEq

structure StorageSync where
  document : DocumentId
  update : StorageUpdate
deriving DecidableEq

/-! ## Validation -/

def StorageMutation.exact (mutation : StorageMutation) : Storage.StorageMutation :=
  ⟨mutation.area, mutation.expectedVersion.toNat, mutation.operation⟩

def StorageChange.exact (change : StorageChange) : Storage.StorageChange :=
  ⟨change.version.toNat, change.key, change.oldValue, change.newValue⟩

def StorageUpdate.exact (update : StorageUpdate) : Storage.StorageUpdate where
  area := update.area
  version := update.version.toNat
  acknowledgement := update.acknowledgement.toNat
  change := update.change.map StorageChange.exact
  sourceUrl := update.sourceUrl

/-- `map_err(|_| ProtocolError::InvalidPayload(field))` -/
def asPayload (field : String) (result : StorageResult Unit) : ProtocolResult Unit :=
  result.mapError fun _ => .InvalidPayload field

def StorageMutationRequest.validate (request : StorageMutationRequest) : ProtocolResult Unit := do
  failIf (request.sequence = 0 ∨ MAX_URL_BYTES < Str.byteLen request.sourceUrl)
    (.InvalidPayload "storage write identity")
  asPayload "storage mutation" request.mutation.exact.validate

def StorageSnapshotEntry.validate (item : StorageSnapshotEntry) : ProtocolResult Unit :=
  asPayload "storage snapshot entry"
    (validateBytes (saturatingAdd item.entry.key.byteLen item.entry.value.byteLen))

def StorageSync.validate (sync : StorageSync) : ProtocolResult Unit :=
  asPayload "storage synchronization" sync.update.exact.validate

/-! ## Encoding -/

def areaTag : StorageAreaKind → UInt8
  | .Local => 1
  | .Session => 2

def encodeOperation : StorageOperation → ProtocolResult (List UInt8)
  | .Set key value => do
    let key ← WireWriter.storageString key
    let value ← WireWriter.storageString value
    pure (WireWriter.u8 1 ++ key ++ value)
  | .Remove key => do
    let key ← WireWriter.storageString key
    pure (WireWriter.u8 2 ++ key)
  | .Clear => pure (WireWriter.u8 3)

/-- `encode_renderer_state` of a storage mutation, message kind 0x0134. -/
def encodeMutation (request : StorageMutationRequest) : ProtocolResult (List UInt8) := do
  request.validate
  let sourceUrl ← WireWriter.string request.sourceUrl
  let operation ← encodeOperation request.mutation.operation
  pure (WireWriter.u64 request.document.get ++ WireWriter.u8 (areaTag request.mutation.area) ++
    WireWriter.u64 request.mutation.expectedVersion ++ WireWriter.u64 request.sequence ++ sourceUrl ++
    operation)

/-- `encode_browser_state` of a snapshot entry, message kind 0x0135. -/
def encodeSnapshotEntry (item : StorageSnapshotEntry) : ProtocolResult (List UInt8) := do
  item.validate
  let key ← WireWriter.storageString item.entry.key
  let value ← WireWriter.storageString item.entry.value
  pure (WireWriter.u64 item.document.get ++ WireWriter.u8 (areaTag item.area) ++ key ++ value)

def encodeChange (change : StorageChange) : ProtocolResult (List UInt8) := do
  let key ← WireWriter.option WireWriter.storageString change.key
  let oldValue ← WireWriter.option WireWriter.storageString change.oldValue
  let newValue ← WireWriter.option WireWriter.storageString change.newValue
  pure (key ++ oldValue ++ newValue)

/-- `storage_sync::encode`, message kind 0x0138. -/
def encodeSync (sync : StorageSync) : ProtocolResult (List UInt8) := do
  sync.validate
  let sourceUrl ← WireWriter.string sync.update.sourceUrl
  let change ← WireWriter.option encodeChange sync.update.change
  pure (WireWriter.u64 sync.document.get ++ WireWriter.u8 (areaTag sync.update.area) ++
    WireWriter.u64 sync.update.version ++ WireWriter.u64 sync.update.acknowledgement ++ sourceUrl ++
    change)

/-! ## Decoding -/

open WireReader

def decodeAreaTag : UInt8 → ProtocolResult StorageAreaKind
  | 1 => .ok .Local
  | 2 => .ok .Session
  | _ => .error (.InvalidPayload "storage area")

def decodeArea : WireReader StorageAreaKind := do
  let tag ← u8
  Reader.ofExcept (decodeAreaTag tag)

/-- `DocumentId::new` -/
def newDocumentId (value : UInt64) : ProtocolResult DocumentId :=
  if h : value ≠ 0 then .ok ⟨value, h⟩ else .error (.InvalidPayload "zero document identifier")

def decodeDocumentId : WireReader DocumentId := do
  let value ← u64
  Reader.ofExcept (newDocumentId value)

def nonzero (field : String) (value : UInt64) : ProtocolResult UInt64 :=
  if value ≠ 0 then .ok value else .error (.InvalidPayload field)

def decodeNonzero (field : String) : WireReader UInt64 := do
  let value ← u64
  Reader.ofExcept (nonzero field value)

def decodeEntry : WireReader StorageEntry := do
  let key ← storageString MAX_STORAGE_KEY_BYTES
  let value ← storageString MAX_STORAGE_VALUE_BYTES
  pure { key, value }

def decodeOperation : WireReader StorageOperation := do
  match ← u8 with
  | 1 =>
    let entry ← decodeEntry
    pure (.Set entry.key entry.value)
  | 2 =>
    let key ← storageString MAX_STORAGE_KEY_BYTES
    pure (.Remove key)
  | 3 => pure .Clear
  | _ => WireReader.invalid "storage mutation operation"

def decodeMutationFields : WireReader StorageMutationRequest := do
  let document ← decodeDocumentId
  let area ← decodeArea
  let expectedVersion ← decodeNonzero "storage mutation"
  let sequence ← decodeNonzero "storage sequence"
  let sourceUrl ← string MAX_URL_BYTES
  let operation ← decodeOperation
  pure { document, sequence, sourceUrl, mutation := { area, expectedVersion, operation } }

/-- `decode_renderer_state` of message kind 0x0134. -/
def decodeMutation : WireReader StorageMutationRequest := do
  let request ← decodeMutationFields
  Reader.ofExcept request.validate
  finish
  pure request

def decodeSnapshotEntryFields : WireReader StorageSnapshotEntry := do
  let document ← decodeDocumentId
  let area ← decodeArea
  let entry ← decodeEntry
  pure { document, area, entry }

/-- `decode_browser_state` of message kind 0x0135. -/
def decodeSnapshotEntry : WireReader StorageSnapshotEntry := do
  let item ← decodeSnapshotEntryFields
  Reader.ofExcept item.validate
  finish
  pure item

/-- `storage_sync::nullable` -/
def nullable : WireReader (Option StorageString) := option (storageString MAX_STORAGE_BYTES_PER_ORIGIN)

def decodeChange (version : UInt64) : WireReader StorageChange := do
  let key ← nullable
  let oldValue ← nullable
  let newValue ← nullable
  pure { version, key, oldValue, newValue }

def decodeSyncFields : WireReader StorageSync := do
  let document ← decodeDocumentId
  let area ← decodeArea
  let version ← u64
  let acknowledgement ← u64
  let sourceUrl ← string MAX_URL_BYTES
  let change ← option (decodeChange version)
  pure { document, update := { area, version, acknowledgement, change, sourceUrl } }

/-- `storage_sync::decode`, message kind 0x0138. -/
def decodeSync : WireReader StorageSync := do
  let sync ← decodeSyncFields
  finish
  Reader.ofExcept sync.validate
  pure sync

end StorageCodec
end BetterWebBrowser.RendererProtocol
