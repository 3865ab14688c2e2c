import BetterWebBrowser.RendererProtocol.Splice
import Mathlib.Data.List.Forall2
import Mathlib.Data.List.TakeWhile

/-!
# Display lists that stay in step

An edit script turns one list into another up to an equivalence of items. The encoder only
sends such scripts, the decoder applies them to a list that is equivalent to the base, and so
the lists on both sides stay equivalent over every run of presentations.
-/

namespace BetterWebBrowser.RendererProtocol

open Framework List

/-- The edits, from position `copied` of the base on, turn the rest of the old list into the
rest of the new one. -/
inductive Turns {A : Type} (Same : A → A → Prop) : Nat → List A → List A → List Edit → Prop
  | done {copied : Nat} {old new : List A} : Forall₂ Same old new → Turns Same copied old new []
  | edit {copied : Nat} {keptOld keptNew removed inserted old new : List A} {edits : List Edit} :
      Forall₂ Same keptOld keptNew →
      Turns Same (copied + keptOld.length + removed.length) old new edits →
      Turns Same copied (keptOld ++ removed ++ old) (keptNew ++ inserted ++ new)
        ({ start := copied + keptOld.length, removed := removed.length,
           inserted := inserted.length } :: edits)

private theorem forall₂_trans {A : Type} {Same : A → A → Prop} (hsame : Equivalence Same)
    {first second third : List A} (h : Forall₂ Same first second)
    (hnext : Forall₂ Same second third) : Forall₂ Same first third := by
  induction h generalizing third with
  | nil =>
    cases hnext
    exact .nil
  | cons hhead _ ih =>
    cases hnext with
    | cons hhead' htail' => exact .cons (hsame.trans hhead hhead') (ih htail')

private theorem forall₂_symm {A : Type} {Same : A → A → Prop} (hsame : Equivalence Same)
    {first second : List A} (h : Forall₂ Same first second) : Forall₂ Same second first :=
  (h.imp fun _ _ hhead => hsame.symm hhead).flip

private theorem forall₂_append_left {A : Type} {Same : A → A → Prop} {first second both : List A}
    (h : Forall₂ Same (first ++ second) both) :
    ∃ before after, both = before ++ after ∧ Forall₂ Same first before ∧
      Forall₂ Same second after := by
  induction first generalizing both with
  | nil => exact ⟨[], both, rfl, .nil, h⟩
  | cons item first ih =>
    cases h with
    | cons hhead htail =>
      obtain ⟨before, after, rfl, hbefore, hafter⟩ := ih htail
      exact ⟨_ :: before, after, rfl, .cons hhead hbefore, hafter⟩

namespace ItemCodec

variable {Item : Type} {codec : ItemCodec Item}

variable (codec) in
/-- Two items that the comparison does not tell apart. -/
def Same (a b : Item) : Prop := codec.sameDisplayItem a b = true

/-! ## The encoder's edits turn the old list into the new one -/

variable (codec) in
theorem commonPrefix_le (old new : List Item) :
    codec.commonPrefix old new ≤ old.length ∧ codec.commonPrefix old new ≤ new.length := by
  have htake : codec.commonPrefix old new ≤ (old.zip new).length :=
    (List.takeWhile_sublist _).length_le
  rw [List.length_zip] at htake
  omega

variable (codec) in
theorem commonPrefix_same (old new : List Item) :
    Forall₂ codec.Same (old.take (codec.commonPrefix old new))
      (new.take (codec.commonPrefix old new)) := by
  induction old generalizing new with
  | nil => exact .nil
  | cons a old ih =>
    cases new with
    | nil => exact .nil
    | cons b new =>
      rw [commonPrefix, List.zip_cons_cons, List.takeWhile_cons]
      split
      next hsame => exact .cons hsame (ih new)
      next => exact .nil

theorem changedRuns_turns {start budget : Nat} {pairs : List (Item × Item)} {index sent : Nat}
    {edits : List Edit} (h : codec.changedRuns start budget pairs index sent = some edits)
    {copied : Nat} {keptOld keptNew old new : List Item}
    (hkept : Forall₂ codec.Same keptOld keptNew) (hrest : Forall₂ codec.Same old new)
    (hat : start + index = copied + keptOld.length) :
    Turns codec.Same copied (keptOld ++ pairs.map Prod.fst ++ old)
      (keptNew ++ pairs.map Prod.snd ++ new) edits := by
  induction pairs, index, sent using changedRuns.induct codec budget
    generalizing edits copied keptOld keptNew with
  | case1 index sent =>
    rw [changedRuns] at h
    cases h
    exact .done (rel_append (rel_append hkept .nil) hrest)
  | case2 index sent a b rest hsame ih =>
    rw [changedRuns, if_pos hsame] at h
    have hkept' : Forall₂ codec.Same (keptOld ++ [a]) (keptNew ++ [b]) :=
      rel_append hkept (.cons hsame .nil)
    have hat' : start + (index + 1) = copied + (keptOld ++ [a]).length := by
      rw [List.length_append, List.length_singleton]
      omega
    simpa [List.append_assoc] using ih h hkept' hat'
  | case3 =>
    rename_i hdiffers differs run hover
    rw [changedRuns, if_neg hdiffers, if_pos hover] at h
    cases h
  | case4 =>
    rename_i a b rest hdiffers differs run hroom ih
    rw [changedRuns, if_neg hdiffers, if_neg hroom] at h
    obtain ⟨tail, htail, htaken⟩ := Option.bind_eq_some_iff.mp h
    cases htaken
    let changed := (a, b) :: rest.takeWhile differs
    have hsplit : (a, b) :: rest = changed ++ rest.dropWhile differs := by
      rw [List.cons_append, List.takeWhile_append_dropWhile]
    have hrun : run = changed.length := Nat.add_comm 1 _
    have hold : (changed.map Prod.fst).length = run := by rw [List.length_map, hrun]
    have hnew : (changed.map Prod.snd).length = run := by rw [List.length_map, hrun]
    have htail' : Turns codec.Same (copied + keptOld.length + (changed.map Prod.fst).length)
        ([] ++ (rest.dropWhile differs).map Prod.fst ++ old)
        ([] ++ (rest.dropWhile differs).map Prod.snd ++ new) tail := by
      apply ih htail .nil
      rw [hold, List.length_nil]
      omega
    have hturns : Turns codec.Same copied
        (keptOld ++ changed.map Prod.fst ++ ([] ++ (rest.dropWhile differs).map Prod.fst ++ old))
        (keptNew ++ changed.map Prod.snd ++ ([] ++ (rest.dropWhile differs).map Prod.snd ++ new))
        _ := .edit hkept htail'
    rw [hold, hnew, ← hat] at hturns
    rw [hsplit]
    simpa [List.append_assoc] using hturns

/-- Two lists fall into a prefix, a middle and a suffix, with equivalent items in the outer
parts. -/
private theorem commonEnds (codec : ItemCodec Item) (old new : List Item) :
    ∃ keptOld oldMiddle lastOld keptNew newMiddle lastNew,
      let start := codec.commonPrefix old new
      let suffix := codec.commonPrefix (old.drop start).reverse (new.drop start).reverse
      old = keptOld ++ oldMiddle ++ lastOld ∧ new = keptNew ++ newMiddle ++ lastNew ∧
      keptOld.length = start ∧
      (old.take (old.length - suffix)).drop start = oldMiddle ∧
      (new.take (new.length - suffix)).drop start = newMiddle ∧
      Forall₂ codec.Same keptOld keptNew ∧ Forall₂ codec.Same lastOld lastNew := by
  let start := codec.commonPrefix old new
  let suffix := codec.commonPrefix (old.drop start).reverse (new.drop start).reverse
  have hstart := commonPrefix_le codec old new
  have hsuffix := commonPrefix_le codec (old.drop start).reverse (new.drop start).reverse
  rw [List.length_reverse, List.length_reverse, List.length_drop, List.length_drop] at hsuffix
  have hsplit : ∀ items : List Item, start ≤ items.length - suffix →
      items = items.take start ++ (items.take (items.length - suffix)).drop start ++
        items.drop (items.length - suffix) := by
    intro items hfits
    have htake : items.take start = (items.take (items.length - suffix)).take start := by
      rw [List.take_take, Nat.min_eq_left hfits]
    rw [htake, List.take_append_drop, List.take_append_drop]
  have hlast : ∀ items : List Item, start ≤ items.length - suffix → suffix ≤ items.length →
      (items.drop start).reverse.take suffix = (items.drop (items.length - suffix)).reverse := by
    intro items hfits hlength
    rw [List.take_reverse, List.drop_drop, List.length_drop]
    congr 2
    omega
  refine ⟨_, _, _, _, _, _, hsplit old (by omega), hsplit new (by omega), ?_, rfl, rfl,
    commonPrefix_same codec old new, ?_⟩
  · rw [List.length_take, Nat.min_eq_left hstart.1]
  · have hsame := commonPrefix_same codec (old.drop start).reverse (new.drop start).reverse
    rw [hlast old (by omega) (by omega), hlast new (by omega) (by omega)] at hsame
    exact forall₂_reverse_iff.mp hsame

/-- What the encoder sends as edits turns the old list into the new one. -/
theorem edits_turns {old new : List Item} {edits : List Edit}
    (h : codec.edits old new = some edits) : Turns codec.Same 0 old new edits := by
  obtain ⟨keptOld, oldMiddle, lastOld, keptNew, newMiddle, lastNew, hold, hnew, hstart, holdMiddle,
    hnewMiddle, hkept, hlast⟩ := commonEnds codec old new
  rw [ItemCodec.edits, holdMiddle, hnewMiddle, ← hstart] at h
  have hat : keptOld.length + 0 = 0 + keptOld.length := Nat.add_comm _ _
  split at h
  next =>
    split at h
    next =>
      cases h
      rw [hold, hnew]
      have hturns : Turns codec.Same 0 (keptOld ++ oldMiddle ++ lastOld)
        (keptNew ++ newMiddle ++ lastNew) _ := .edit hkept (.done hlast)
      rwa [Nat.zero_add] at hturns
    next => cases h
  next hlength =>
    have hequal : oldMiddle.length = newMiddle.length := not_not.mp hlength
    have hturns := changedRuns_turns h hkept hlast hat
    rw [List.map_fst_zip (Nat.le_of_eq hequal), List.map_snd_zip (Nat.le_of_eq hequal.symm),
      ← hold, ← hnew] at hturns
    exact hturns

private theorem length_changedRuns {start budget : Nat} {pairs : List (Item × Item)}
    {index sent : Nat} {edits : List Edit}
    (h : codec.changedRuns start budget pairs index sent = some edits) :
    edits.length ≤ pairs.length := by
  induction pairs, index, sent using changedRuns.induct codec budget generalizing edits with
  | case1 index sent =>
    rw [changedRuns] at h
    cases h
    exact Nat.le_refl _
  | case2 index sent a b rest hsame ih =>
    rw [changedRuns, if_pos hsame] at h
    exact Nat.le_succ_of_le (ih h)
  | case3 =>
    rename_i hdiffers differs run hover
    rw [changedRuns, if_neg hdiffers, if_pos hover] at h
    cases h
  | case4 =>
    rename_i a b rest hdiffers differs run hroom ih
    rw [changedRuns, if_neg hdiffers, if_neg hroom] at h
    obtain ⟨tail, htail, htaken⟩ := Option.bind_eq_some_iff.mp h
    cases htaken
    exact Nat.succ_le_succ ((ih htail).trans (List.length_dropWhile_le _ _))

theorem length_edits {old new : List Item} {edits : List Edit}
    (h : codec.edits old new = some edits) : edits.length ≤ max 1 new.length := by
  rw [ItemCodec.edits] at h
  split at h
  next =>
    split at h
    next =>
      cases h
      exact Nat.le_max_left _ _
    next => cases h
  next =>
    have hruns := length_changedRuns h
    rw [List.length_zip, List.length_drop, List.length_drop, List.length_take,
      List.length_take] at hruns
    omega

/-! ## The decoder applies them -/

variable (codec) in
/-- What is assumed of single items: the comparison is an equivalence, and an item that was
encoded is decoded as an equivalent one. -/
structure Lawful : Prop where
  same_equivalence : Equivalence codec.Same
  decode_encode : ∀ {item : Item} {bytes : List UInt8}, codec.encodeItem item = .ok bytes →
    ∃ decoded, codec.Same item decoded ∧ Reader.Reads codec.decodeItem bytes decoded

theorem reads_encodeEach (hlawful : codec.Lawful) {items : List Item} {bytes : List UInt8}
    (h : codec.encodeEach items = .ok bytes) :
    ∃ decoded, Forall₂ codec.Same items decoded ∧
      Reader.Reads (codec.decodeItem.times items.length) bytes decoded := by
  induction items generalizing bytes with
  | nil =>
    cases h
    exact ⟨[], .nil, Reader.Reads.pure []⟩
  | cons item items ih =>
    obtain ⟨first, hfirst, h⟩ := bind_eq_ok.mp h
    obtain ⟨more, hmore, h⟩ := bind_eq_ok.mp h
    cases h
    obtain ⟨decoded, hsame, hreads⟩ := hlawful.decode_encode hfirst
    obtain ⟨rest, hsames, hrest⟩ := ih hmore
    exact ⟨decoded :: rest, .cons hsame hsames, hreads.bind (hrest.map _)⟩

private theorem toNat_ofNat_of_le {value : Nat} (h : value ≤ MAX_DOM_NODES * 4) :
    (UInt32.ofNat value).toNat = value := by
  rw [MAX_DOM_NODES] at h
  rw [UInt32.toNat_ofNat']
  omega

/-- One edit with its items, as the decoder reads it. -/
private theorem reads_decodeEdit {base items kept new : List Item} {count copied start removed : Nat}
    {bytes more : List UInt8} {result : Nat × List Item}
    (hbase : base.length ≤ MAX_DOM_NODES * 4) (hcopied : copied ≤ start)
    (hstop : start + removed ≤ base.length)
    (hslice : slice base copied start = (.ok kept : Except (Fault ProtocolError) _))
    (hroom : (items ++ kept).length + new.length ≤ MAX_DOM_NODES * 4)
    (hnew : Reader.Reads (codec.decodeItem.times new.length) bytes new)
    (hrest : Reader.Reads (codec.decodeEdits base count (start + removed) (items ++ kept ++ new))
      more result) :
    Reader.Reads (codec.decodeEdits base (count + 1) copied items)
      (WireWriter.u32 (UInt32.ofNat start) ++ WireWriter.u32 (UInt32.ofNat removed) ++
        WireWriter.u32 (UInt32.ofNat new.length) ++ bytes ++ more) result := by
  have hinserted : new.length ≤ MAX_DOM_NODES * 4 := by omega
  have hsum : checkedAdd 64 start removed = some (start + removed) := by
    rw [checkedAdd_eq_some]
    rw [MAX_DOM_NODES] at hbase
    omega
  have hrange : (checkedAdd 64 start removed).filter
      (fun stop => decide (copied ≤ start ∧ stop ≤ base.length)) = some (start + removed) := by
    rw [hsum, Option.filter_some, if_pos (decide_eq_true ⟨hcopied, hstop⟩)]
  have hstart' := toNat_ofNat_of_le (show start ≤ MAX_DOM_NODES * 4 by omega)
  have hremoved' := toNat_ofNat_of_le (show removed ≤ MAX_DOM_NODES * 4 by omega)
  have hinserted' := toNat_ofNat_of_le hinserted
  have hbounded : Reader.Reads (WireReader.boundedCount (UInt32.ofNat new.length)
      (MAX_DOM_NODES * 4) "display item edit") [] new.length := by
    have hreads : Reader.Reads (WireReader.boundedCount (UInt32.ofNat new.length)
        (MAX_DOM_NODES * 4) "display item edit") [] (UInt32.ofNat new.length).toNat :=
      WireReader.reads_boundedCount (hinserted'.trans_le hinserted)
    rwa [hinserted'] at hreads
  simp only [List.append_assoc]
  rw [decodeEdits]
  refine (WireReader.reads_u32 _).orRaise.bind ((WireReader.reads_u32 _).orRaise.bind
    ((WireReader.reads_u32 _).orRaise.bind (hbounded.orRaise.bind ?_)))
  rw [hstart', hremoved', hrange]
  refine (Reader.Reads.ofExcept hslice).bind ?_
  rw [if_neg (Nat.not_lt.mpr hroom)]
  exact hnew.orRaise.bind hrest

/-- The items of an edit are the part of the new list that the running offset points at. -/
private theorem encodeEdits_step {copied : Nat} {keptOld keptNew removed inserted new before : List Item}
    {edits : List Edit} (hkept : keptOld.length = keptNew.length)
    (hlength : (before ++ (keptNew ++ inserted ++ new)).length ≤ MAX_DOM_NODES * 4) :
    codec.encodeEdits (before ++ (keptNew ++ inserted ++ new)) (before.length - copied)
        ({ start := copied + keptOld.length, removed := removed.length,
           inserted := inserted.length } :: edits) = (do
      let bytes ← (codec.encodeEach inserted).mapError .Returned
      let more ← codec.encodeEdits (before ++ keptNew ++ inserted ++ new)
        ((before ++ keptNew ++ inserted).length - (copied + keptOld.length + removed.length : Nat)) edits
      pure (WireWriter.u32 (UInt32.ofNat (copied + keptOld.length)) ++
        WireWriter.u32 (UInt32.ofNat removed.length) ++
        WireWriter.u32 (UInt32.ofNat inserted.length) ++ bytes ++ more)) := by
  simp only [List.length_append] at hlength
  have hfirst : asUsize ((copied + keptOld.length : Nat) + ((before.length : Int) - copied)) =
      (before ++ keptNew).length := by
    rw [MAX_DOM_NODES] at hlength
    rw [asUsize, List.length_append]
    omega
  have hoffset : (before.length : Int) - copied + (inserted.length - removed.length) =
      (before ++ keptNew ++ inserted).length - (copied + keptOld.length + removed.length : Nat) := by
    simp only [List.length_append]
    omega
  have hitems : before ++ (keptNew ++ inserted ++ new) = before ++ keptNew ++ inserted ++ new := by
    simp only [List.append_assoc]
  rw [encodeEdits, hfirst, hoffset, hitems, slice_append]
  rfl

/-- Edits that turn the base into the new list are never cut out of range by the encoder, and
the decoder turns a list equivalent to the base into one equivalent to the new list. -/
private theorem reads_decodeEdits (hlawful : codec.Lawful) {copied : Nat}
    {oldRest newRest : List Item} {edits : List Edit}
    (hturns : Turns codec.Same copied oldRest newRest edits) {before built : List Item}
    {bytes : List UInt8} (hnewLength : (before ++ newRest).length ≤ MAX_DOM_NODES * 4)
    (h : codec.encodeEdits (before ++ newRest) (before.length - copied) edits = .ok bytes)
    {copiedBase restBase : List Item} (hcopied : copiedBase.length = copied)
    (hbaseLength : (copiedBase ++ restBase).length ≤ MAX_DOM_NODES * 4)
    (hbase : Forall₂ codec.Same oldRest restBase) (hbuilt : Forall₂ codec.Same before built) :
    ∃ stop items kept,
      Reader.Reads (codec.decodeEdits (copiedBase ++ restBase) edits.length copied built) bytes
        (stop, items) ∧
      slice (copiedBase ++ restBase) stop (copiedBase ++ restBase).length =
        (.ok kept : Except (Fault ProtocolError) _) ∧
      Forall₂ codec.Same (before ++ newRest) (items ++ kept) := by
  induction hturns generalizing before built bytes copiedBase restBase with
  | done hsame =>
    cases h
    refine ⟨_, built, restBase, Reader.Reads.pure _, ?_, rel_append hbuilt ?_⟩
    · have hslice := slice_append (E := ProtocolError) copiedBase restBase []
      rw [List.append_nil, ← List.length_append, hcopied] at hslice
      exact hslice
    · exact forall₂_trans hlawful.same_equivalence
        (forall₂_symm hlawful.same_equivalence hsame) hbase
  | @edit copied keptOld keptNew removed inserted old new edits hkept _ ih =>
    obtain ⟨middleBase, lastBase, rfl, hmiddle, hlast⟩ := forall₂_append_left hbase
    obtain ⟨keptBase, removedBase, rfl, hkeptBase, hremoved⟩ := forall₂_append_left hmiddle
    have hkeptLength := hkept.length_eq
    have hkeptBaseLength := hkeptBase.length_eq
    have hremovedLength := hremoved.length_eq
    have hbuiltLength := hbuilt.length_eq
    rw [encodeEdits_step hkeptLength hnewLength] at h
    simp only [List.length_append] at hnewLength hbaseLength
    obtain ⟨encoded, hencoded, h⟩ := bind_eq_ok.mp h
    obtain ⟨more, hmore, h⟩ := bind_eq_ok.mp h
    cases h
    obtain ⟨decoded, hdecoded, hreads⟩ :=
      reads_encodeEach hlawful (mapError_eq_ok.mp hencoded)
    have hdecodedLength := hdecoded.length_eq
    have hkeptSame : Forall₂ codec.Same keptNew keptBase :=
      forall₂_trans hlawful.same_equivalence (forall₂_symm hlawful.same_equivalence hkept) hkeptBase
    have hitems : before ++ (keptNew ++ inserted ++ new) =
        before ++ keptNew ++ inserted ++ new := by
      simp only [List.append_assoc]
    have hbaseItems : copiedBase ++ (keptBase ++ removedBase ++ lastBase) =
        copiedBase ++ keptBase ++ removedBase ++ lastBase := by
      simp only [List.append_assoc]
    have hbuilt' : Forall₂ codec.Same (before ++ keptNew ++ inserted) (built ++ keptBase ++ decoded) :=
      rel_append (rel_append hbuilt hkeptSame) hdecoded
    have hcopied' : (copiedBase ++ keptBase ++ removedBase).length =
        copied + keptOld.length + removed.length := by
      simp only [List.length_append]
      omega
    obtain ⟨stop, items, rest, hrest, hslices, hsame⟩ := ih
      (by simp only [List.length_append]; omega) hmore hcopied'
      (by simp only [List.length_append]; omega) hlast hbuilt'
    rw [hitems, hbaseItems]
    refine ⟨stop, items, rest, ?_, hslices, hsame⟩
    have hkeptSlice := slice_append (E := ProtocolError) copiedBase keptBase (removedBase ++ lastBase)
    rw [hcopied, ← hkeptBaseLength, ← List.append_assoc] at hkeptSlice
    have hread : Reader.Reads (codec.decodeItem.times decoded.length) encoded decoded := by
      rwa [← hdecodedLength]
    have hroom : (built ++ keptBase).length + decoded.length ≤ MAX_DOM_NODES * 4 := by
      rw [List.length_append]
      omega
    have hstep := reads_decodeEdit (by simp only [List.length_append]; omega)
      (Nat.le_add_right _ _) (by simp only [List.length_append]; omega) hkeptSlice hroom hread hrest
    rwa [← hdecodedLength] at hstep

/-- The decoder's base stands for the encoder's: same revision, equivalent items. -/
structure InStep (codec : ItemCodec Item) (base kept : ItemBase Item) : Prop where
  revision : kept.revision = base.revision
  items : Forall₂ codec.Same base.items kept.items
  length_le : base.items.length ≤ MAX_DOM_NODES * 4

/-- A list that was encoded is decoded as an equivalent one, with nothing of what follows. -/
theorem reads_decodeItems (hlawful : codec.Lawful) {items : List Item}
    {base kept : Option (ItemBase Item)} {bytes : List UInt8}
    (hitems : items.length ≤ MAX_DOM_NODES * 4)
    (hbase : ∀ found ∈ base, ∃ known ∈ kept, codec.InStep found known)
    (h : codec.encodeItems items base = .ok bytes) :
    ∃ decoded, Forall₂ codec.Same items decoded ∧
      Reader.Reads (codec.decodeItems kept) bytes decoded := by
  have hcount : ∀ {count : Nat} (field : String), count ≤ MAX_DOM_NODES * 4 →
      Reader.Reads (WireReader.boundedCount (UInt32.ofNat count) (MAX_DOM_NODES * 4) field) []
        count := by
    intro count field hle
    have hreads : Reader.Reads (WireReader.boundedCount (UInt32.ofNat count) (MAX_DOM_NODES * 4)
        field) [] (UInt32.ofNat count).toNat :=
      WireReader.reads_boundedCount ((toNat_ofNat_of_le hle).trans_le hle)
    rwa [toNat_ofNat_of_le hle] at hreads
  rw [encodeItems] at h
  split at h
  next =>
    obtain ⟨encoded, hencoded, h⟩ := bind_eq_ok.mp h
    cases h
    obtain ⟨decoded, hsame, hreads⟩ := reads_encodeEach hlawful (mapError_eq_ok.mp hencoded)
    refine ⟨decoded, hsame, ?_⟩
    rw [List.append_assoc]
    exact (WireReader.reads_u8 0).orRaise.bind ((WireReader.reads_u32 _).orRaise.bind
      ((hcount _ hitems).orRaise.bind hreads.orRaise))
  next found edits hfound =>
    obtain ⟨found', hmem, hedits⟩ := Option.bind_eq_some_iff.mp hfound
    obtain ⟨edits', hedits, hpair⟩ := Option.map_eq_some_iff.mp hedits
    cases hpair
    obtain ⟨encoded, hencoded, h⟩ := bind_eq_ok.mp h
    cases h
    obtain ⟨known, hknown, hstep⟩ := hbase found hmem
    have hitems' : ([] ++ items).length ≤ MAX_DOM_NODES * 4 := hitems
    have hencoded' : codec.encodeEdits ([] ++ items) (([] : List Item).length - (0 : Nat)) edits =
        .ok encoded := hencoded
    have hknownLength : ([] ++ known.items).length ≤ MAX_DOM_NODES * 4 :=
      hstep.items.length_eq ▸ hstep.length_le
    have heditsLength : edits.length ≤ MAX_DOM_NODES * 4 :=
      (length_edits hedits).trans (Nat.max_le.mpr ⟨by decide, hitems⟩)
    obtain ⟨stop, built, rest, hreads, hslice, hsame⟩ := reads_decodeEdits hlawful
      (edits_turns hedits) hitems' hencoded' rfl hknownLength hstep.items .nil
    refine ⟨built ++ rest, hsame, ?_⟩
    have hfilter : kept.filter (fun base => base.revision = found.revision) = some known := by
      rw [Option.mem_def.mp hknown, Option.filter_some, if_pos (decide_eq_true hstep.revision)]
    have hroom : ¬ (built ++ rest).length > MAX_DOM_NODES * 4 := by
      rw [← hsame.length_eq]
      exact Nat.not_lt.mpr hitems
    rw [List.append_assoc, List.append_assoc]
    refine (WireReader.reads_u8 1).orRaise.bind ((WireReader.reads_u64 _).orRaise.bind ?_)
    rw [hfilter]
    refine (WireReader.reads_u32 _).orRaise.bind ((hcount _ heditsLength).orRaise.bind ?_)
    have htail : Reader.Reads (do
        let kept ← Reader.ofExcept (slice known.items stop known.items.length)
        if (built ++ kept).length > MAX_DOM_NODES * 4 then invalid "display items"
        else pure (built ++ kept)) [] (built ++ rest) := by
      refine (Reader.Reads.ofExcept hslice).bind ?_
      rw [if_neg hroom]
      exact Reader.Reads.pure _
    rw [← List.append_nil encoded]
    exact hreads.bind htail

/-! ## Nothing is out of range, whatever the bytes -/

private theorem encodeEdits_safe {copied : Nat} {oldRest newRest : List Item} {edits : List Edit}
    (hturns : Turns codec.Same copied oldRest newRest edits) {before : List Item}
    (hlength : (before ++ newRest).length ≤ MAX_DOM_NODES * 4) :
    codec.encodeEdits (before ++ newRest) (before.length - copied) edits ≠ .error .Panicked := by
  induction hturns generalizing before with
  | done =>
    intro h
    cases h
  | @edit copied keptOld keptNew removed inserted old new edits hkept _ ih =>
    have hrest : (before ++ keptNew ++ inserted ++ new).length ≤ MAX_DOM_NODES * 4 := by
      simp only [List.length_append] at hlength ⊢
      omega
    have hmore := ih hrest
    rw [encodeEdits_step hkept.length_eq hlength]
    intro h
    cases hencoded : codec.encodeEach inserted with
    | error error =>
      rw [hencoded] at h
      cases h
    | ok bytes =>
      rw [hencoded] at h
      cases htail : codec.encodeEdits (before ++ keptNew ++ inserted ++ new)
        ((before ++ keptNew ++ inserted).length - (copied + keptOld.length + removed.length : Nat))
        edits with
      | error fault =>
        cases fault with
        | Returned error =>
          rw [htail] at h
          cases h
        | Panicked => exact hmore htail
      | ok more =>
        rw [htail] at h
        cases h

/-- The encoder cuts no slice out of range. -/
theorem encodeItems_ne_panicked {items : List Item} {base : Option (ItemBase Item)}
    (hitems : items.length ≤ MAX_DOM_NODES * 4) :
    codec.encodeItems items base ≠ .error .Panicked := by
  rw [encodeItems]
  split
  next =>
    intro h
    cases hencoded : codec.encodeEach items with
    | error error =>
      rw [hencoded] at h
      cases h
    | ok bytes =>
      rw [hencoded] at h
      cases h
  next found edits hfound =>
    obtain ⟨found', -, hedits⟩ := Option.bind_eq_some_iff.mp hfound
    obtain ⟨edits', hedits, hpair⟩ := Option.map_eq_some_iff.mp hedits
    cases hpair
    have hitems' : ([] ++ items).length ≤ MAX_DOM_NODES * 4 := hitems
    have hsafe := encodeEdits_safe (edits_turns hedits) hitems'
    intro h
    cases hencoded : codec.encodeEdits items 0 edits with
    | error fault =>
      cases fault with
      | Returned error =>
        rw [hencoded] at h
        cases h
      | Panicked => exact hsafe hencoded
    | ok bytes =>
      rw [hencoded] at h
      cases h

private theorem boundedCount_le {value : UInt32} {maximum count : Nat} {field : String}
    {input rest : List UInt8}
    (h : WireReader.boundedCount value maximum field input = .ok (count, rest)) :
    count ≤ maximum := by
  obtain ⟨_, middle, hpassed, h⟩ := Reader.run_bind_eq_ok.mp h
  cases h
  exact not_not.mp (Reader.run_failIf_eq_ok.mp hpassed).1

private theorem slice_of_le {base : List Item} {start stop : Nat} (hstart : start ≤ stop)
    (hstop : stop ≤ base.length) :
    slice base start stop = (.ok ((base.take stop).drop start) : Except (Fault ProtocolError) _) :=
  if_pos ⟨hstart, hstop⟩

theorem decodeEdits_safe (base : List Item) (count : Nat) {copied : Nat} (items : List Item)
    (hcopied : copied ≤ base.length) :
    Reader.Safe (codec.decodeEdits base count copied items) fun result => result.1 ≤ base.length := by
  induction count generalizing copied items with
  | zero => exact Reader.Safe.pure hcopied
  | succ count ih =>
    rw [decodeEdits]
    refine (Reader.Safe.orRaise' _).bind fun start _ => (Reader.Safe.orRaise' _).bind fun removed _ =>
      (Reader.Safe.orRaise' _).bind fun value _ => (Reader.Safe.orRaise' _).bind fun inserted _ => ?_
    split
    next => exact Reader.Safe.fail _
    next stop hstop =>
      obtain ⟨hsum, hrange⟩ := Option.filter_eq_some_iff.mp hstop
      obtain ⟨hstart, hfits⟩ := of_decide_eq_true hrange
      have hbefore : start.toNat ≤ base.length :=
        (Nat.le_add_right _ _).trans ((checkedAdd_eq_some.mp hsum).1.trans_le hfits)
      refine (Reader.Safe.ofExcept (slice_of_le hstart hbefore)).bind fun kept _ => ?_
      split
      next => exact Reader.Safe.fail _
      next =>
        exact (Reader.Safe.orRaise' _).bind fun new _ => ih _ hfits

variable (codec) in
/-- Decoding never panics, and what it returns is within the limit. -/
theorem decodeItems_safe (base : Option (ItemBase Item)) :
    Reader.Safe (codec.decodeItems base) fun items => items.length ≤ MAX_DOM_NODES * 4 := by
  refine (Reader.Safe.orRaise' _).bind fun encoding _ => ?_
  split
  next =>
    refine (Reader.Safe.orRaise' _).bind fun value _ => ?_
    refine (Reader.Safe.orRaise boundedCount_le).bind fun count hcount => ?_
    exact Reader.Safe.orRaise fun h => (Reader.length_times h).trans_le hcount
  next =>
    refine (Reader.Safe.orRaise' _).bind fun revision _ => ?_
    split
    next => exact Reader.Safe.fail _
    next known _ =>
      refine (Reader.Safe.orRaise' _).bind fun value _ => (Reader.Safe.orRaise' _).bind
        fun count _ => ?_
      refine (decodeEdits_safe known.items count [] (Nat.zero_le _)).bind fun result hresult => ?_
      refine (Reader.Safe.ofExcept (slice_of_le hresult (Nat.le_refl _))).bind
        fun kept _ => ?_
      split
      next => exact Reader.Safe.fail _
      next hroom => exact Reader.Safe.pure (Nat.le_of_not_lt hroom)
  next => exact Reader.Safe.fail _

/-- A base counts only when the bytes name its revision. -/
theorem decodeItems_base (base : ItemBase Item) (input : List UInt8) :
    codec.decodeItems (some base) input = codec.decodeItems none input ∨
      ∃ rest, input = WireWriter.u8 1 ++ WireWriter.u64 base.revision ++ rest := by
  by_cases hnamed : ∃ rest, input = WireWriter.u8 1 ++ WireWriter.u64 base.revision ++ rest
  · exact .inr hnamed
  refine .inl (Reader.run_bind_congr fun encoding rest hencoding => ?_)
  have hfirst := WireReader.u8_eq_ok.mp (Reader.run_orRaise_eq_ok.mp hencoding)
  split
  next => rfl
  next =>
    refine Reader.run_bind_congr fun revision tail hrevision => ?_
    have hsecond := WireReader.u64_eq_ok.mp (Reader.run_orRaise_eq_ok.mp hrevision)
    have hother : ¬ base.revision = revision := by
      rintro rfl
      rw [hsecond] at hfirst
      exact hnamed ⟨tail, by rw [hfirst, List.append_assoc]⟩
    rw [Option.filter_some, if_neg (mt of_decide_eq_true hother), Option.filter_none]
  next => rfl

/-! ## Runs of presentations -/

variable (Item) in
/-- The items of one presentation, its revision, whether the renderer encodes it against the
list it sent before, and what follows the items in the payload. -/
structure Presented where
  items : List Item
  revision : UInt64
  incremental : Bool
  rest : List UInt8

variable (codec) in
/-- Each presentation's revision and bytes, encoded against the one encoded just before. -/
def encodeRun : Option (ItemBase Item) → List (Presented Item) →
    Except (Fault ProtocolError) (List (UInt64 × List UInt8))
  | _, [] => pure []
  | last, presentation :: presentations => do
    let bytes ← codec.encodeItems presentation.items (if presentation.incremental then last else none)
    let frames ← encodeRun (some ⟨presentation.revision, presentation.items⟩) presentations
    pure ((presentation.revision, bytes ++ presentation.rest) :: frames)

variable (codec) in
/-- What is decoded from each of the frames, against the list decoded just before. -/
def decodeRun : Option (ItemBase Item) → List (UInt64 × List UInt8) →
    Except (Fault ProtocolError) (List (List Item × List UInt8))
  | _, [] => pure []
  | base, (revision, bytes) :: frames => do
    let (items, rest) ← codec.decodeItems base bytes
    let lists ← decodeRun (some ⟨revision, items⟩) frames
    pure ((items, rest) :: lists)

variable (codec) in
/-- A decoded list stands for what was presented: equivalent items, position by position, and
the rest of the payload untouched. -/
def Shows (presentation : Presented Item) (decoded : List Item × List UInt8) : Prop :=
  Forall₂ codec.Same presentation.items decoded.1 ∧ decoded.2 = presentation.rest

theorem decodeRun_shows (hlawful : codec.Lawful) {presentations : List (Presented Item)}
    (hlength : ∀ presentation ∈ presentations, presentation.items.length ≤ MAX_DOM_NODES * 4)
    {last base : Option (ItemBase Item)} {frames : List (UInt64 × List UInt8)}
    (hbase : ∀ found ∈ last, ∃ known ∈ base, codec.InStep found known)
    (h : codec.encodeRun last presentations = .ok frames) :
    ∃ lists, codec.decodeRun base frames = .ok lists ∧
      Forall₂ codec.Shows presentations lists := by
  induction presentations generalizing last base frames with
  | nil =>
    cases h
    exact ⟨[], rfl, .nil⟩
  | cons presentation presentations ih =>
    obtain ⟨bytes, hbytes, h⟩ := bind_eq_ok.mp h
    obtain ⟨more, hmore, h⟩ := bind_eq_ok.mp h
    cases h
    have hitems := hlength presentation List.mem_cons_self
    have hused : ∀ found ∈ (if presentation.incremental then last else none),
        ∃ known ∈ base, codec.InStep found known := by
      intro found hfound
      split at hfound
      next => exact hbase found hfound
      next => cases hfound
    obtain ⟨decoded, hsame, hreads⟩ := reads_decodeItems hlawful hitems hused hbytes
    have hstep : codec.InStep ⟨presentation.revision, presentation.items⟩
        ⟨presentation.revision, decoded⟩ := ⟨rfl, hsame, hitems⟩
    have hnext : ∀ found ∈ some (⟨presentation.revision, presentation.items⟩ : ItemBase Item),
        ∃ known ∈ some (⟨presentation.revision, decoded⟩ : ItemBase Item),
          codec.InStep found known := by
      intro found hfound
      cases Option.mem_some.mp hfound
      exact ⟨_, rfl, hstep⟩
    obtain ⟨lists, hlists, hshows⟩ :=
      ih (fun other hother => hlength other (List.mem_cons_of_mem _ hother)) hnext hmore
    refine ⟨(decoded, presentation.rest) :: lists, ?_, .cons ⟨hsame, rfl⟩ hshows⟩
    rw [decodeRun, hreads presentation.rest]
    show (codec.decodeRun _ more >>= fun lists => pure ((decoded, presentation.rest) :: lists)) = _
    rw [hlists]
    rfl

/-- Incremental display lists stay in step: every presentation of a run that was encoded is
decoded, as an equivalent list. Whatever the bytes and the base, decoding returns an error or
a list within the limit, and the base counts only under the revision that the bytes name. -/
theorem presentations_in_step (codec : ItemCodec Item) (hlawful : codec.Lawful) :
    (∀ (presentations : List (Presented Item)) (frames : List (UInt64 × List UInt8)),
      (∀ presentation ∈ presentations, presentation.items.length ≤ MAX_DOM_NODES * 4) →
      codec.encodeRun none presentations = .ok frames →
      ∃ lists, codec.decodeRun none frames = .ok lists ∧
        Forall₂ codec.Shows presentations lists) ∧
    ∀ (base : Option (ItemBase Item)) (input : List UInt8),
      codec.decodeItems base input ≠ .error .Panicked ∧
      (∀ items rest, codec.decodeItems base input = .ok (items, rest) →
        items.length ≤ MAX_DOM_NODES * 4) ∧
      ∀ known ∈ base, codec.decodeItems base input = codec.decodeItems none input ∨
        ∃ rest, input = WireWriter.u8 1 ++ WireWriter.u64 known.revision ++ rest := by
  constructor
  · intro presentations frames hlength h
    exact decodeRun_shows hlawful hlength (fun found hfound => by cases hfound) h
  · intro base input
    have hsafe := decodeItems_safe codec base input
    refine ⟨?_, ?_, ?_⟩
    · intro h
      rw [h] at hsafe
      exact hsafe
    · intro items rest h
      rw [h] at hsafe
      exact hsafe
    · intro known hknown
      rw [Option.mem_def.mp hknown]
      exact decodeItems_base known input

/-- Items with a mark that is neither compared nor sent. -/
private def markedCodec : ItemCodec (UInt8 × Bool) where
  sameDisplayItem a b := a.1 == b.1
  encodeItem item := .ok (WireWriter.u8 item.1)
  decodeItem := do
    let value ← WireReader.u8
    pure (value, false)

private theorem markedCodec_lawful : markedCodec.Lawful where
  same_equivalence := by
    refine ⟨fun a => beq_self_eq_true a.1, ?_, ?_⟩
    · intro a b hab
      exact beq_iff_eq.mpr (beq_iff_eq.mp hab).symm
    · intro a b c hab hbc
      exact beq_iff_eq.mpr ((beq_iff_eq.mp hab).trans (beq_iff_eq.mp hbc))
  decode_encode := by
    intro item bytes h
    cases h
    exact ⟨(item.1, false), beq_self_eq_true item.1, (WireReader.reads_u8 item.1).map _⟩

private def markedRun : List (Presented (UInt8 × Bool)) :=
  [{ items := [(1, true), (2, true), (3, true), (4, true), (5, true)], revision := 7,
     incremental := true, rest := [9] },
   { items := [(1, true), (8, true), (3, false), (4, true), (6, true)], revision := 8,
     incremental := true, rest := [] },
   { items := [(1, true), (3, true), (4, true), (6, true)], revision := 9,
     incremental := true, rest := [9, 9] }]

theorem presentations_in_step_sample : ∃ frames lists,
    markedCodec.encodeRun none markedRun = .ok frames ∧
    markedCodec.decodeRun none frames = .ok lists ∧
    Forall₂ markedCodec.Shows markedRun lists := by
  have hencodes : (markedCodec.encodeRun none markedRun).toOption.isSome = true := by
    decide +kernel
  obtain ⟨frames, hframes⟩ : ∃ frames, markedCodec.encodeRun none markedRun = .ok frames := by
    cases hresult : markedCodec.encodeRun none markedRun with
    | error fault =>
      rw [hresult] at hencodes
      cases hencodes
    | ok frames => exact ⟨frames, rfl⟩
  obtain ⟨lists, hlists, hshows⟩ :=
    (presentations_in_step markedCodec markedCodec_lawful).1 markedRun frames (by decide) hframes
  exact ⟨frames, lists, hframes, hlists, hshows⟩

end ItemCodec

end BetterWebBrowser.RendererProtocol
