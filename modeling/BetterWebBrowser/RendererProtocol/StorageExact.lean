import BetterWebBrowser.RendererProtocol.StorageCodec

/-!
# The format of the Web Storage messages

Every valid message has one payload, which fits the frames of its kind and comes back from the
decoder, and every payload that a decoder accepts is that of the message it returns. A string
is at most as long in units as in quota bytes, so two bytes a unit never exceed twice the quota.
-/

namespace BetterWebBrowser.RendererProtocol

open Framework Storage RuntimeCodec

/-! ## Strings -/

namespace WireReader

theorem u16_ofNat (unit : Fin 65536) :
    WireWriter.u16 (UInt16.ofNat unit.val) = [UInt8.ofNat unit.val, UInt8.ofNat (unit.val / 256)] := by
  have hval : (UInt16.ofNat unit.val).toNat = unit.val := UInt16.toNat_ofNat_of_lt' unit.isLt
  rw [WireWriter.u16, hval]
  rfl

theorem unit_of_pair (unit : Fin 65536) :
    Fin.ofNat 65536 (fromLittleEndian [UInt8.ofNat unit.val, UInt8.ofNat (unit.val / 256)]) = unit := by
  have hnumber := fromLittleEndian_littleEndian 2 unit.val
  have hlt := unit.isLt
  apply Fin.ext
  rw [show [UInt8.ofNat unit.val, UInt8.ofNat (unit.val / 256)] = littleEndian 2 unit.val from rfl,
    hnumber, Fin.val_ofNat]
  omega

theorem pair_of_unit (low high : UInt8) :
    WireWriter.u16 (UInt16.ofNat (Fin.ofNat 65536 (fromLittleEndian [low, high])).val) = [low, high] := by
  have hlt : fromLittleEndian [low, high] < 65536 :=
    Nat.lt_of_lt_of_eq (fromLittleEndian_lt [low, high]) (show 256 ^ 2 = 65536 by decide)
  have hval : (Fin.ofNat 65536 (fromLittleEndian [low, high])).val = fromLittleEndian [low, high] := by
    rw [Fin.val_ofNat, Nat.mod_eq_of_lt hlt]
  rw [WireWriter.u16, hval, UInt16.toNat_ofNat_of_lt' hlt]
  exact littleEndian_fromLittleEndian [low, high]

theorem unitsOfBytes_layout (units : List (Fin 65536)) :
    unitsOfBytes (units.flatMap fun unit => WireWriter.u16 (UInt16.ofNat unit.val)) = units := by
  induction units with
  | nil => rfl
  | cons unit units ih =>
    rw [List.flatMap_cons, u16_ofNat, List.cons_append, List.cons_append, List.nil_append,
      unitsOfBytes, unit_of_pair, ih]

theorem layout_unitsOfBytes {bytes : List UInt8} (h : bytes.length % 2 = 0) :
    ((unitsOfBytes bytes).flatMap fun unit => WireWriter.u16 (UInt16.ofNat unit.val)) = bytes := by
  induction bytes using unitsOfBytes.induct with
  | case1 low high bytes ih =>
    rw [unitsOfBytes, List.flatMap_cons, pair_of_unit, ih]
    · rfl
    · rw [List.length_cons, List.length_cons] at h
      omega
  | case2 bytes hshort =>
    cases bytes with
    | nil => rfl
    | cons low rest =>
      cases rest with
      | nil => simp at h
      | cons high rest => exact absurd rfl (hshort low high rest)

theorem length_units (units : List (Fin 65536)) :
    (units.flatMap fun unit => WireWriter.u16 (UInt16.ofNat unit.val)).length = units.length * 2 := by
  induction units with
  | nil => rfl
  | cons unit units ih =>
    rw [List.flatMap_cons, List.length_append, ih, length_u16, List.length_cons]
    omega

theorem storageString_inverts {maximum : Nat} (hmaximum : maximum * 2 < 2 ^ 32) :
    Reader.Inverts (storageString maximum) (fun value => value.units.length ≤ maximum)
      WireWriter.unitsLayout := by
  intro input value rest
  rw [storageString, Reader.run_bind_eq_ok]
  constructor
  · rintro ⟨word, middle, hword, hread⟩
    obtain rfl := u32_eq_ok.mp hword
    obtain ⟨_, after, hcheck, hread⟩ := Reader.run_bind_eq_ok.mp hread
    obtain ⟨hpassed, hafter⟩ := Reader.run_failIf_eq_ok.mp hcheck
    cases hafter
    obtain ⟨bytes, last, htake, hpure⟩ := Reader.run_bind_eq_ok.mp hread
    cases hpure
    obtain ⟨rfl, hlength⟩ := run_take_eq_ok.mp htake
    simp only [not_or, not_not, Nat.not_lt] at hpassed
    have hlayout := layout_unitsOfBytes (hlength ▸ hpassed.2)
    have hunits : (unitsOfBytes bytes).length * 2 = word.toNat := by
      rw [← hlength, ← length_units, hlayout]
    refine ⟨?_, ?_⟩
    · have := hpassed.1
      simp only
      omega
    · rw [WireWriter.unitsLayout, hlayout, hunits, UInt32.ofNat_toNat, List.append_assoc]
  · rintro ⟨hfits, rfl⟩
    have hlength : (UInt32.ofNat (value.units.length * 2)).toNat = value.units.length * 2 :=
      toNat_ofNat_length (by omega)
    refine ⟨_, _, u32_eq_ok.mpr (List.append_assoc _ _ _), ?_⟩
    refine Reader.run_bind_eq_ok.mpr ⟨(), _, Reader.run_failIf_eq_ok.mpr ⟨?_, rfl⟩, ?_⟩
    · rw [hlength]
      omega
    · refine Reader.run_bind_eq_ok.mpr
        ⟨_, rest, run_take_eq_ok.mpr ⟨rfl, (length_units value.units).trans hlength.symm⟩, ?_⟩
      rw [unitsOfBytes_layout]
      rfl

theorem run_finish_eq_ok {input rest : List UInt8} :
    finish input = .ok ((), rest) ↔ input = [] ∧ rest = [] := by
  rw [finish]
  split
  next hnil =>
    subst hnil
    constructor
    · intro h
      cases h
      exact ⟨rfl, rfl⟩
    · rintro ⟨-, rfl⟩
      rfl
  next hrest => exact ⟨(nomatch ·), fun h => absurd h.1 hrest⟩

theorem payload_eq_ok {A : Type} {decoder : WireReader A} {bytes : List UInt8} {value : A} :
    payload decoder bytes = .ok value ↔ ∃ rest, decoder bytes = .ok (value, rest) := by
  rw [payload]
  cases decoder bytes with
  | error error => exact iff_of_false (nomatch ·) (by simp)
  | ok pair =>
    obtain ⟨found, rest⟩ := pair
    simp [Except.map]

section Payloads
variable {A : Type} {fields : WireReader A} {Valid : A → Prop} {layout : A → List UInt8}
  {check : A → ProtocolResult Unit}

/-- A decoder that checks its value and then the end of the payload. -/
theorem payload_checked (h : Reader.Inverts fields Valid layout) {bytes : List UInt8} {value : A} :
    payload (fields >>= fun value => Reader.ofExcept (check value) >>= fun _ =>
        finish >>= fun _ => pure value) bytes = .ok value ↔
      Valid value ∧ check value = .ok () ∧ bytes = layout value := by
  rw [payload_eq_ok]
  constructor
  · rintro ⟨rest, hread⟩
    obtain ⟨found, middle, hfound, hread⟩ := Reader.run_bind_eq_ok.mp hread
    obtain ⟨_, after, hcheck, hread⟩ := Reader.run_bind_eq_ok.mp hread
    obtain ⟨_, last, hfinish, hpure⟩ := Reader.run_bind_eq_ok.mp hread
    cases hpure
    obtain ⟨hpassed, rfl⟩ := Reader.run_ofExcept_eq_ok.mp hcheck
    obtain ⟨rfl, rfl⟩ := run_finish_eq_ok.mp hfinish
    obtain ⟨hvalid, hbytes⟩ := (h _ _ _).mp hfound
    exact ⟨hvalid, hpassed, hbytes.trans (List.append_nil _)⟩
  · rintro ⟨hvalid, hpassed, rfl⟩
    refine ⟨[], Reader.run_bind_eq_ok.mpr ⟨value, [], ?_, ?_⟩⟩
    · exact (h _ _ _).mpr ⟨hvalid, (List.append_nil _).symm⟩
    · refine Reader.run_bind_eq_ok.mpr ⟨(), [], Reader.run_ofExcept_eq_ok.mpr ⟨hpassed, rfl⟩, ?_⟩
      exact Reader.run_bind_eq_ok.mpr ⟨(), [], run_finish_eq_ok.mpr ⟨rfl, rfl⟩, rfl⟩

/-- A decoder that checks the end of the payload and then its value. -/
theorem payload_finished (h : Reader.Inverts fields Valid layout) {bytes : List UInt8} {value : A} :
    payload (fields >>= fun value => finish >>= fun _ =>
        Reader.ofExcept (check value) >>= fun _ => pure value) bytes = .ok value ↔
      Valid value ∧ check value = .ok () ∧ bytes = layout value := by
  rw [payload_eq_ok]
  constructor
  · rintro ⟨rest, hread⟩
    obtain ⟨found, middle, hfound, hread⟩ := Reader.run_bind_eq_ok.mp hread
    obtain ⟨_, after, hfinish, hread⟩ := Reader.run_bind_eq_ok.mp hread
    obtain ⟨_, last, hcheck, hpure⟩ := Reader.run_bind_eq_ok.mp hread
    cases hpure
    obtain ⟨hpassed, rfl⟩ := Reader.run_ofExcept_eq_ok.mp hcheck
    obtain ⟨rfl, rfl⟩ := run_finish_eq_ok.mp hfinish
    obtain ⟨hvalid, hbytes⟩ := (h _ _ _).mp hfound
    exact ⟨hvalid, hpassed, hbytes.trans (List.append_nil _)⟩
  · rintro ⟨hvalid, hpassed, rfl⟩
    refine ⟨[], Reader.run_bind_eq_ok.mpr ⟨value, [], ?_, ?_⟩⟩
    · exact (h _ _ _).mpr ⟨hvalid, (List.append_nil _).symm⟩
    · refine Reader.run_bind_eq_ok.mpr ⟨(), [], run_finish_eq_ok.mpr ⟨rfl, rfl⟩, ?_⟩
      exact Reader.run_bind_eq_ok.mpr ⟨(), [], Reader.run_ofExcept_eq_ok.mpr ⟨hpassed, rfl⟩, rfl⟩

end Payloads

end WireReader

namespace WireWriter

theorem storageString_writes : Reader.Writes storageString
    (fun value => value.units.length * 2 < 2 ^ 32) unitsLayout := by
  intro value found
  rw [storageString]
  split
  next hfits => simpa only [hfits, true_and, Except.ok.injEq] using eq_comm
  next hlong => simp only [hlong, false_and, reduceCtorEq]

@[simp] theorem length_unitsLayout (value : StorageString) :
    (unitsLayout value).length = 4 + value.units.length * 2 := by
  rw [unitsLayout, List.length_append, WireReader.length_units, length_u32]

end WireWriter

namespace StorageCodec

/-! ## What the checks say of the strings -/

theorem validateBytes_eq_ok {bytes : Nat} :
    validateBytes bytes = .ok () ↔ bytes ≤ MAX_STORAGE_BYTES_PER_ORIGIN := by
  rw [validateBytes]
  split
  next h => exact iff_of_false (nomatch ·) (Nat.not_le.mpr h)
  next h => exact iff_of_true rfl (Nat.not_lt.mp h)

theorem asPayload_eq_ok {field : String} {result : StorageResult Unit} :
    asPayload field result = .ok () ↔ result = .ok () := mapError_eq_ok

/-- The code units of an operation. -/
def operationUnits : StorageOperation → Nat
  | .Set key value => key.units.length + value.units.length
  | .Remove key => key.units.length
  | .Clear => 0

theorem operationUnits_le {mutation : StorageMutation} (h : mutation.exact.validate = .ok ()) :
    mutation.expectedVersion ≠ 0 ∧
      operationUnits mutation.operation ≤ MAX_STORAGE_BYTES_PER_ORIGIN := by
  rw [Storage.StorageMutation.validate] at h
  split at h
  · cases h
  next hversion =>
    refine ⟨fun hzero => hversion (by rw [StorageMutation.exact, hzero]; rfl), ?_⟩
    cases hop : mutation.operation with
    | Set key value =>
      rw [StorageMutation.exact, hop] at h
      have hbytes := validateBytes_eq_ok.mp h
      have hkey := key.length_le_byteLen
      have hvalue := value.length_le_byteLen
      simp only [operationUnits]
      omega
    | Remove key =>
      rw [StorageMutation.exact, hop] at h
      exact Nat.le_trans key.length_le_byteLen (validateBytes_eq_ok.mp h)
    | Clear => exact Nat.zero_le _

theorem entryUnits_le {item : StorageSnapshotEntry} (h : item.validate = .ok ()) :
    item.entry.key.units.length + item.entry.value.units.length ≤ MAX_STORAGE_BYTES_PER_ORIGIN := by
  have hbytes := validateBytes_eq_ok.mp (asPayload_eq_ok.mp h)
  have hkey := item.entry.key.length_le_byteLen
  have hvalue := item.entry.value.length_le_byteLen
  simp only [saturatingAdd, MAX_STORAGE_BYTES_PER_ORIGIN] at hbytes ⊢
  omega

/-- The code units of a nullable string. -/
def optionUnits (value : Option StorageString) : Nat := value.elim 0 fun value => value.units.length

theorem optionUnits_le (value : Option StorageString) :
    optionUnits value ≤ Storage.StorageChange.optionBytes value := by
  cases value with
  | none => exact Nat.le_refl _
  | some value => exact value.length_le_byteLen

theorem changeUnits_le {change : StorageChange} (h : change.exact.validate = .ok ()) :
    optionUnits change.key + optionUnits change.oldValue ≤ MAX_STORAGE_BYTES_PER_ORIGIN ∧
      optionUnits change.key + optionUnits change.newValue ≤ MAX_STORAGE_BYTES_PER_ORIGIN := by
  rw [Storage.StorageChange.validate] at h
  have hkey := optionUnits_le change.key
  have hold := optionUnits_le change.oldValue
  have hnew := optionUnits_le change.newValue
  split at h
  · cases h
  · split at h
    · cases h
    next hfirst =>
      have h₁ := validateBytes_eq_ok.mp hfirst
      have h₂ := validateBytes_eq_ok.mp h
      simp only [StorageChange.exact] at h₁ h₂
      omega

/-- What the checks of a synchronization record say. -/
structure SyncValid (sync : StorageSync) : Prop where
  url : Str.byteLen sync.update.sourceUrl ≤ MAX_URL_BYTES
  version : ∀ change ∈ sync.update.change, change.version = sync.update.version
  change : ∀ change ∈ sync.update.change, change.exact.validate = .ok ()

theorem syncValid_of_validate {sync : StorageSync} (h : sync.validate = .ok ()) : SyncValid sync := by
  have hupdate := asPayload_eq_ok.mp h
  rw [Storage.StorageUpdate.validate] at hupdate
  split at hupdate
  · cases hupdate
  next hmetadata =>
    simp only [not_or, Nat.not_lt, StorageUpdate.exact] at hmetadata
    cases hchange : sync.update.change with
    | none => exact ⟨hmetadata.2.1, by simp [hchange], by simp [hchange]⟩
    | some change =>
      rw [StorageUpdate.exact, hchange] at hupdate
      simp only [Option.map_some] at hupdate
      split at hupdate
      · cases hupdate
      next hversion =>
        have hsame : change.version = sync.update.version :=
          UInt64.toNat_inj.mp (not_not.mp hversion)
        refine ⟨hmetadata.2.1, ?_, ?_⟩
        · rintro _ hmem
          obtain rfl := Option.some.inj (hchange.symm.trans hmem)
          exact hsame
        · rintro _ hmem
          obtain rfl := Option.some.inj (hchange.symm.trans hmem)
          exact hupdate

/-! ## The parts of the messages -/

theorem decodeArea_inverts :
    Reader.Inverts decodeArea (fun _ => True) fun area => WireWriter.u8 (areaTag area) := by
  refine WireReader.u8_inverts.tagged fun tag area => ?_
  constructor
  · intro h
    rw [decodeAreaTag.eq_def] at h
    split at h <;> cases h <;> rfl
  · rintro rfl
    cases area <;> rfl

theorem decodeDocumentId_inverts :
    Reader.Inverts decodeDocumentId (fun _ => True) fun document => WireWriter.u64 document.get := by
  refine WireReader.u64_inverts.tagged fun value document => ?_
  rw [newDocumentId]
  constructor
  · intro h
    split at h
    · rw [← Except.ok.inj h]
    · cases h
  · rintro rfl
    rw [dif_pos document.ne_zero]

theorem decodeNonzero_inverts (field : String) :
    Reader.Inverts (decodeNonzero field) (fun value => value ≠ 0) WireWriter.u64 := by
  intro input value rest
  rw [decodeNonzero, Reader.run_bind_eq_ok]
  constructor
  · rintro ⟨found, middle, hfound, hread⟩
    obtain rfl := WireReader.u64_eq_ok.mp hfound
    obtain ⟨hvalue, rfl⟩ := Reader.run_ofExcept_eq_ok.mp hread
    rw [nonzero] at hvalue
    split at hvalue
    next hne =>
      obtain rfl := Except.ok.inj hvalue
      exact ⟨hne, rfl⟩
    next => cases hvalue
  · rintro ⟨hne, rfl⟩
    refine ⟨value, rest, WireReader.u64_eq_ok.mpr rfl, ?_⟩
    exact Reader.run_ofExcept_eq_ok.mpr ⟨if_pos hne, rfl⟩

def UnitsFit (value : StorageString) : Prop := value.units.length ≤ MAX_STORAGE_BYTES_PER_ORIGIN

theorem quotaString_inverts : Reader.Inverts (WireReader.storageString MAX_STORAGE_BYTES_PER_ORIGIN)
    UnitsFit WireWriter.unitsLayout := WireReader.storageString_inverts (by decide)

def entryLayout (entry : StorageEntry) : List UInt8 :=
  WireWriter.unitsLayout entry.key ++ WireWriter.unitsLayout entry.value

def EntryFits (entry : StorageEntry) : Prop := UnitsFit entry.key ∧ UnitsFit entry.value

theorem decodeEntry_inverts : Reader.Inverts decodeEntry EntryFits entryLayout := by
  refine Reader.Inverts.record
    (.field StorageEntry.key quotaString_inverts fun key =>
    .field StorageEntry.value quotaString_inverts fun value =>
    .done fun entry => ?_) ?_ ?_
  · cases entry
    simp
    tauto
  · simp [EntryFits]
  · simp [entryLayout]

def operationLayout : StorageOperation → List UInt8
  | .Set key value => WireWriter.u8 1 ++ entryLayout ⟨key, value⟩
  | .Remove key => WireWriter.u8 2 ++ WireWriter.unitsLayout key
  | .Clear => WireWriter.u8 3

def OperationFits : StorageOperation → Prop
  | .Set key value => EntryFits ⟨key, value⟩
  | .Remove key => UnitsFit key
  | .Clear => True

theorem operationFits_of_units {operation : StorageOperation}
    (h : operationUnits operation ≤ MAX_STORAGE_BYTES_PER_ORIGIN) : OperationFits operation := by
  cases operation with
  | Set key value =>
    exact ⟨Nat.le_trans (Nat.le_add_right _ _) h, Nat.le_trans (Nat.le_add_left _ _) h⟩
  | Remove key => exact h
  | Clear => trivial

theorem encodeString_of_fits {value : StorageString} (h : UnitsFit value) :
    WireWriter.storageString value = .ok (WireWriter.unitsLayout value) := by
  refine (WireWriter.storageString_writes value _).mpr ⟨?_, rfl⟩
  simp only [UnitsFit, MAX_STORAGE_BYTES_PER_ORIGIN] at h
  omega

theorem encodeOperation_of_fits {operation : StorageOperation} (h : OperationFits operation) :
    encodeOperation operation = .ok (operationLayout operation) := by
  cases operation with
  | Set key value =>
    rw [encodeOperation, encodeString_of_fits h.1, encodeString_of_fits h.2]
    rfl
  | Remove key =>
    rw [encodeOperation, encodeString_of_fits h]
    rfl
  | Clear => rfl

theorem decodeOperation_inverts :
    Reader.Inverts decodeOperation OperationFits operationLayout := by
  intro input operation rest
  rw [decodeOperation, Reader.run_bind_eq_ok]
  constructor
  · rintro ⟨tag, middle, htag, hread⟩
    obtain rfl := WireReader.u8_eq_ok.mp htag
    split at hread
    next =>
      obtain ⟨entry, after, hentry, hpure⟩ := Reader.run_bind_eq_ok.mp hread
      cases hpure
      obtain ⟨hfits, rfl⟩ := (decodeEntry_inverts _ _ _).mp hentry
      exact ⟨hfits, rfl⟩
    next =>
      obtain ⟨key, after, hkey, hpure⟩ := Reader.run_bind_eq_ok.mp hread
      cases hpure
      obtain ⟨hfits, rfl⟩ := (quotaString_inverts _ _ _).mp hkey
      exact ⟨hfits, rfl⟩
    next =>
      cases hread
      exact ⟨trivial, rfl⟩
    next => cases hread
  · rintro ⟨hfits, rfl⟩
    cases operation with
    | Set key value =>
      refine ⟨1, entryLayout ⟨key, value⟩ ++ rest, WireReader.u8_eq_ok.mpr rfl, ?_⟩
      exact Reader.run_bind_eq_ok.mpr
        ⟨⟨key, value⟩, rest, (decodeEntry_inverts _ _ _).mpr ⟨hfits, rfl⟩, rfl⟩
    | Remove key =>
      refine ⟨2, WireWriter.unitsLayout key ++ rest, WireReader.u8_eq_ok.mpr rfl, ?_⟩
      exact Reader.run_bind_eq_ok.mpr
        ⟨key, rest, (quotaString_inverts _ _ _).mpr ⟨hfits, rfl⟩, rfl⟩
    | Clear => exact ⟨3, rest, WireReader.u8_eq_ok.mpr rfl, rfl⟩

/-! ## The messages -/

/-- Every valid message has a payload within the frames of its kind, from which it comes back,
and every payload that the decoder accepts is that of the message it returns. -/
structure Travels {A : Type} (Valid : A → Prop) (encode : A → ProtocolResult (List UInt8))
    (decode : WireReader A) (kind : UInt16) : Prop where
  arrives : ∀ value, Valid value → ∃ bytes, encode value = .ok bytes ∧
    bytes.length ≤ payloadLimit kind ∧ WireReader.payload decode bytes = .ok value
  canonical : ∀ bytes value, WireReader.payload decode bytes = .ok value → encode value = .ok bytes

theorem Travels.of_layout {A : Type} {Valid : A → Prop} {encode : A → ProtocolResult (List UInt8)}
    {decode : WireReader A} {kind : UInt16} (layout : A → List UInt8)
    (hencode : ∀ value, Valid value → encode value = .ok (layout value))
    (hdecode : ∀ bytes value,
      WireReader.payload decode bytes = .ok value ↔ Valid value ∧ bytes = layout value)
    (hlength : ∀ value, Valid value → (layout value).length ≤ payloadLimit kind) :
    Travels Valid encode decode kind where
  arrives := fun value hvalid =>
    ⟨layout value, hencode value hvalid, hlength value hvalid, (hdecode _ _).mpr ⟨hvalid, rfl⟩⟩
  canonical := by
    intro bytes value h
    obtain ⟨hvalid, rfl⟩ := (hdecode bytes value).mp h
    exact hencode value hvalid

theorem encodeUrl_of_le {url : Str} (h : Str.byteLen url ≤ MAX_URL_BYTES) :
    WireWriter.string url = .ok (stringLayout url) :=
  (WireWriter.string_writes url _).mpr ⟨Nat.lt_of_le_of_lt h (by decide), rfl⟩

theorem url_inverts : Reader.Inverts (WireReader.string MAX_URL_BYTES)
    (fun url => Str.byteLen url ≤ MAX_URL_BYTES) stringLayout := WireReader.string_inverts (by decide)

def mutationLayout (request : StorageMutationRequest) : List UInt8 :=
  WireWriter.u64 request.document.get ++ WireWriter.u8 (areaTag request.mutation.area) ++
    WireWriter.u64 request.mutation.expectedVersion ++ WireWriter.u64 request.sequence ++
    stringLayout request.sourceUrl ++ operationLayout request.mutation.operation

/-- What the checks of a write say. -/
structure RequestValid (request : StorageMutationRequest) : Prop where
  sequence : request.sequence ≠ 0
  url : Str.byteLen request.sourceUrl ≤ MAX_URL_BYTES
  version : request.mutation.expectedVersion ≠ 0
  units : operationUnits request.mutation.operation ≤ MAX_STORAGE_BYTES_PER_ORIGIN

theorem requestValid_of_validate {request : StorageMutationRequest} (h : request.validate = .ok ()) :
    RequestValid request := by
  obtain ⟨hidentity, hmutation⟩ := failIf_bind_eq_ok.mp h
  simp only [not_or, Nat.not_lt] at hidentity
  obtain ⟨hversion, hunits⟩ := operationUnits_le (asPayload_eq_ok.mp hmutation)
  exact ⟨hidentity.1, hidentity.2, hversion, hunits⟩

theorem decodeMutationFields_inverts : Reader.Inverts decodeMutationFields
    (fun request => request.mutation.expectedVersion ≠ 0 ∧ request.sequence ≠ 0 ∧
      Str.byteLen request.sourceUrl ≤ MAX_URL_BYTES ∧ OperationFits request.mutation.operation)
    mutationLayout := by
  refine Reader.Inverts.record
    (.field StorageMutationRequest.document decodeDocumentId_inverts fun document =>
    .field (fun request : StorageMutationRequest => request.mutation.area) decodeArea_inverts
      fun area =>
    .field (fun request : StorageMutationRequest => request.mutation.expectedVersion)
      (decodeNonzero_inverts _) fun expectedVersion =>
    .field StorageMutationRequest.sequence (decodeNonzero_inverts _) fun sequence =>
    .field StorageMutationRequest.sourceUrl url_inverts fun sourceUrl =>
    .field (fun request : StorageMutationRequest => request.mutation.operation)
      decodeOperation_inverts fun operation =>
    .done fun request => ?_) ?_ ?_
  · obtain ⟨document', sequence', sourceUrl', area', expectedVersion', operation'⟩ := request
    simp
    tauto
  · simp
  · simp [mutationLayout]

theorem encodeMutation_of_valid {request : StorageMutationRequest} (h : request.validate = .ok ()) :
    encodeMutation request = .ok (mutationLayout request) := by
  have hvalid := requestValid_of_validate h
  rw [encodeMutation, h, encodeUrl_of_le hvalid.url,
    encodeOperation_of_fits (operationFits_of_units hvalid.units)]
  rfl

theorem length_operationLayout (operation : StorageOperation) :
    (operationLayout operation).length ≤ 9 + operationUnits operation * 2 := by
  cases operation <;> simp [operationLayout, entryLayout, operationUnits] <;> omega

theorem mutation_travels : Travels (fun request => request.validate = .ok ()) encodeMutation
    decodeMutation 0x0134 := by
  refine .of_layout mutationLayout (fun _ => encodeMutation_of_valid) ?_ ?_
  · intro bytes request
    rw [decodeMutation, WireReader.payload_checked decodeMutationFields_inverts]
    constructor
    · rintro ⟨-, hvalidate, rfl⟩
      exact ⟨hvalidate, rfl⟩
    · rintro ⟨hvalidate, rfl⟩
      have hvalid := requestValid_of_validate hvalidate
      exact ⟨⟨hvalid.version, hvalid.sequence, hvalid.url, operationFits_of_units hvalid.units⟩,
        hvalidate, rfl⟩
  · intro request h
    have hvalid := requestValid_of_validate h
    have hoperation := length_operationLayout request.mutation.operation
    have hurl := hvalid.url
    have hunits := hvalid.units
    have hlimit : payloadLimit 0x0134 = MAX_STORAGE_WRITE_FRAME_BYTES := rfl
    rw [hlimit, MAX_STORAGE_WRITE_FRAME_BYTES, MAX_STORAGE_FRAME_BYTES]
    simp only [mutationLayout, List.length_append, length_u64, length_u8, length_stringLayout]
    omega

def snapshotEntryLayout (item : StorageSnapshotEntry) : List UInt8 :=
  WireWriter.u64 item.document.get ++ WireWriter.u8 (areaTag item.area) ++ entryLayout item.entry

theorem entryFits_of_validate {item : StorageSnapshotEntry} (h : item.validate = .ok ()) :
    EntryFits item.entry := by
  have hunits := entryUnits_le h
  exact ⟨Nat.le_trans (Nat.le_add_right _ _) hunits, Nat.le_trans (Nat.le_add_left _ _) hunits⟩

theorem decodeSnapshotEntryFields_inverts : Reader.Inverts decodeSnapshotEntryFields
    (fun item => EntryFits item.entry) snapshotEntryLayout := by
  refine Reader.Inverts.record
    (.field StorageSnapshotEntry.document decodeDocumentId_inverts fun document =>
    .field StorageSnapshotEntry.area decodeArea_inverts fun area =>
    .field StorageSnapshotEntry.entry decodeEntry_inverts fun entry =>
    .done fun item => ?_) ?_ ?_
  · cases item
    simp
    tauto
  · simp
  · simp [snapshotEntryLayout]

theorem encodeSnapshotEntry_of_valid {item : StorageSnapshotEntry} (h : item.validate = .ok ()) :
    encodeSnapshotEntry item = .ok (snapshotEntryLayout item) := by
  have hfits := entryFits_of_validate h
  rw [encodeSnapshotEntry, h, encodeString_of_fits hfits.1, encodeString_of_fits hfits.2,
    snapshotEntryLayout, entryLayout, ← List.append_assoc]
  rfl

theorem snapshotEntry_travels : Travels (fun item => item.validate = .ok ()) encodeSnapshotEntry
    decodeSnapshotEntry 0x0135 := by
  refine .of_layout snapshotEntryLayout (fun _ => encodeSnapshotEntry_of_valid) ?_ ?_
  · intro bytes item
    rw [decodeSnapshotEntry, WireReader.payload_checked decodeSnapshotEntryFields_inverts]
    exact ⟨And.right, fun h => ⟨entryFits_of_validate h.1, h⟩⟩
  · intro item h
    have hunits := entryUnits_le h
    have hlimit : payloadLimit 0x0135 = MAX_STORAGE_FRAME_BYTES := rfl
    rw [hlimit, MAX_STORAGE_FRAME_BYTES]
    simp only [snapshotEntryLayout, entryLayout, List.length_append, length_u64, length_u8,
      WireWriter.length_unitsLayout]
    omega

/-! ## Synchronization records -/

def changeLayout (change : StorageChange) : List UInt8 :=
  WireWriter.optional WireWriter.unitsLayout change.key ++
    WireWriter.optional WireWriter.unitsLayout change.oldValue ++
    WireWriter.optional WireWriter.unitsLayout change.newValue

def syncLayout (sync : StorageSync) : List UInt8 :=
  WireWriter.u64 sync.document.get ++ WireWriter.u8 (areaTag sync.update.area) ++
    WireWriter.u64 sync.update.version ++ WireWriter.u64 sync.update.acknowledgement ++
    stringLayout sync.update.sourceUrl ++ WireWriter.optional changeLayout sync.update.change

/-- The strings of a change that the decoder reads under a version. -/
structure ChangeFits (version : UInt64) (change : StorageChange) : Prop where
  version : change.version = version
  key : ∀ value ∈ change.key, UnitsFit value
  oldValue : ∀ value ∈ change.oldValue, UnitsFit value
  newValue : ∀ value ∈ change.newValue, UnitsFit value

theorem unitsFit_of_optionUnits {value : Option StorageString} {others : Nat}
    (h : others + optionUnits value ≤ MAX_STORAGE_BYTES_PER_ORIGIN) : ∀ found ∈ value, UnitsFit found := by
  rintro found ⟨⟩
  exact Nat.le_trans (Nat.le_add_left _ _) h

theorem changeFits_of_validate {change : StorageChange} (h : change.exact.validate = .ok ()) :
    ChangeFits change.version change := by
  obtain ⟨hold, hnew⟩ := changeUnits_le h
  exact ⟨rfl, unitsFit_of_optionUnits (Nat.add_comm _ _ ▸ hold), unitsFit_of_optionUnits hold,
    unitsFit_of_optionUnits hnew⟩

theorem nullable_inverts : Reader.Inverts nullable (fun value => ∀ found ∈ value, UnitsFit found)
    (WireWriter.optional WireWriter.unitsLayout) := WireReader.option_inverts quotaString_inverts

theorem decodeChange_inverts (version : UInt64) :
    Reader.Inverts (decodeChange version) (ChangeFits version) changeLayout := by
  -- the version is known before the first field is read
  have hfields : Reader.Inverts (decodeChange version)
      (fun change => change.version = version ∧ (∀ value ∈ change.key, UnitsFit value) ∧
        (∀ value ∈ change.oldValue, UnitsFit value) ∧
        (∀ value ∈ change.newValue, UnitsFit value) ∧ True) _ :=
    .field StorageChange.key nullable_inverts fun key =>
    .field StorageChange.oldValue nullable_inverts fun oldValue =>
    .field StorageChange.newValue nullable_inverts fun newValue =>
    .done fun change => by
      cases change
      simp
      tauto
  refine hfields.congr (fun change => ?_) fun change => ?_
  · constructor
    · rintro ⟨hversion, hkey, hold, hnew, -⟩
      exact ⟨hversion, hkey, hold, hnew⟩
    · intro h
      exact ⟨h.version, h.key, h.oldValue, h.newValue, trivial⟩
  · simp only [changeLayout, List.append_assoc, List.append_nil]

theorem decodeSyncFields_inverts : Reader.Inverts decodeSyncFields
    (fun sync => Str.byteLen sync.update.sourceUrl ≤ MAX_URL_BYTES ∧
      ∀ change ∈ sync.update.change, ChangeFits sync.update.version change) syncLayout := by
  refine Reader.Inverts.record
    (.field StorageSync.document decodeDocumentId_inverts fun document =>
    .field (fun sync : StorageSync => sync.update.area) decodeArea_inverts fun area =>
    .field (fun sync : StorageSync => sync.update.version) WireReader.u64_inverts fun version =>
    .field (fun sync : StorageSync => sync.update.acknowledgement) WireReader.u64_inverts
      fun acknowledgement =>
    .field (fun sync : StorageSync => sync.update.sourceUrl) url_inverts fun sourceUrl =>
    @Reader.Inverts.fieldBy _ _ _ _ _ _ UInt64 version _ _
      (fun version change => ∀ found ∈ change, ChangeFits version found)
      (fun _ => WireWriter.optional changeLayout) (fun sync : StorageSync => sync.update.change)
      (fun sync : StorageSync => sync.update.version) (fun sync hknown => ?_)
      (WireReader.option_inverts (decodeChange_inverts version)) fun change =>
    .done fun sync => ?_) ?_ ?_
  · obtain ⟨-, -, hversion, -⟩ := hknown
    exact hversion
  · obtain ⟨document', area', version', acknowledgement', change', sourceUrl'⟩ := sync
    simp
    tauto
  · simp
  · simp [syncLayout]

theorem encodeChange_of_valid {change : StorageChange} (h : change.exact.validate = .ok ()) :
    encodeChange change = .ok (changeLayout change) := by
  have hfits := changeFits_of_validate h
  have hoption : ∀ {value : Option StorageString}, (∀ found ∈ value, UnitsFit found) →
      WireWriter.option WireWriter.storageString value =
        .ok (WireWriter.optional WireWriter.unitsLayout value) := by
    intro value hvalue
    cases value with
    | none => rfl
    | some found =>
      rw [WireWriter.option, encodeString_of_fits (hvalue found rfl)]
      rfl
  rw [encodeChange, hoption hfits.key, hoption hfits.oldValue, hoption hfits.newValue]
  rfl

theorem encodeSync_of_valid {sync : StorageSync} (h : sync.validate = .ok ()) :
    encodeSync sync = .ok (syncLayout sync) := by
  have hvalid := syncValid_of_validate h
  have hchange : WireWriter.option encodeChange sync.update.change =
      .ok (WireWriter.optional changeLayout sync.update.change) := by
    cases hc : sync.update.change with
    | none => rfl
    | some change =>
      rw [WireWriter.option, encodeChange_of_valid (hvalid.change change hc)]
      rfl
  rw [encodeSync, h, encodeUrl_of_le hvalid.url, hchange]
  rfl

theorem length_optionalUnits (value : Option StorageString) :
    (WireWriter.optional WireWriter.unitsLayout value).length ≤ 5 + optionUnits value * 2 := by
  cases value with
  | none => simp [WireWriter.optional, optionUnits]
  | some value =>
    simp [WireWriter.optional, optionUnits]
    omega

/-- The key counts once against each value, but travels once. -/
theorem length_changeLayout_le {change : StorageChange} (h : change.exact.validate = .ok ()) :
    (changeLayout change).length ≤ 15 + 4 * MAX_STORAGE_BYTES_PER_ORIGIN := by
  obtain ⟨hold, hnew⟩ := changeUnits_le h
  have hkey := length_optionalUnits change.key
  have hold' := length_optionalUnits change.oldValue
  have hnew' := length_optionalUnits change.newValue
  simp only [changeLayout, List.length_append]
  omega

theorem sync_travels : Travels (fun sync => sync.validate = .ok ()) encodeSync decodeSync 0x0138 := by
  refine .of_layout syncLayout (fun _ => encodeSync_of_valid) ?_ ?_
  · intro bytes sync
    rw [decodeSync, WireReader.payload_finished decodeSyncFields_inverts]
    refine ⟨And.right, fun h => ⟨?_, h⟩⟩
    have hvalid := syncValid_of_validate h.1
    refine ⟨hvalid.url, fun change hmem => ?_⟩
    rw [← hvalid.version change hmem]
    exact changeFits_of_validate (hvalid.change change hmem)
  · intro sync h
    have hvalid := syncValid_of_validate h
    have hurl := hvalid.url
    have hchange : (WireWriter.optional changeLayout sync.update.change).length ≤
        16 + 4 * MAX_STORAGE_BYTES_PER_ORIGIN := by
      cases hc : sync.update.change with
      | none =>
        rw [WireWriter.optional, length_bool]
        omega
      | some change =>
        have hlength := length_changeLayout_le (hvalid.change change hc)
        simp only [WireWriter.optional, List.length_append, length_bool]
        omega
    have hlimit : payloadLimit 0x0138 = MAX_STORAGE_SYNC_FRAME_BYTES := rfl
    rw [hlimit, MAX_STORAGE_SYNC_FRAME_BYTES]
    simp only [syncLayout, List.length_append, length_u64, length_u8, length_stringLayout]
    omega

/-- The three Web Storage messages fit their frames and come back, and the quota bytes of a
string are its UTF-8 length, never below the number of its code units. -/
theorem storage_messages_travel :
    Travels (fun request => request.validate = .ok ()) encodeMutation decodeMutation 0x0134 ∧
    Travels (fun item => item.validate = .ok ()) encodeSnapshotEntry decodeSnapshotEntry 0x0135 ∧
    Travels (fun sync => sync.validate = .ok ()) encodeSync decodeSync 0x0138 ∧
    ∀ value : StorageString, value.byteLen = StorageString.utf8Len (Utf16.scalars value.units) ∧
      value.units.length ≤ value.byteLen :=
  ⟨mutation_travels, snapshotEntry_travels, sync_travels,
    fun value => ⟨value.byteLen_eq, value.length_le_byteLen⟩⟩

end StorageCodec
end BetterWebBrowser.RendererProtocol
