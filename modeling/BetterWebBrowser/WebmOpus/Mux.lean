import BetterWebBrowser.WebmOpus.Packets

/-!
# Recording WebM Opus

The recorder writes one Cluster for each packet of 960 frames, timed in milliseconds, and the
padding of the last one in nanoseconds. The writer and the Opus parser are parameters.
-/

namespace BetterWebBrowser.WebmOpus

open Framework

/-- The scale that the recorder writes: one millisecond. -/
def writtenScale : UInt64 := 1000000

/-- A Cluster with its one Block. -/
structure Cluster where
  timestamp : Nat
  packet : List UInt8
  discardPadding : Option Nat
deriving DecidableEq, Repr

structure Mux where
  written : List Cluster
  rawFrames : Nat
  preSkip : UInt16
  finished : Bool
  failed : Bool

def Mux.new (preSkip : UInt16) : Mux := ⟨[], 0, preSkip, false, false⟩

/-- A call of the recorder, and whether the writer takes the Cluster and the end of the Segment. -/
structure Call where
  packet : List UInt8
  finalGranule : Option Nat
  clusterWritten : Bool
  segmentEnded : Bool

namespace Mux

section Writing

variable (opus : OpusParser) (mux : Mux) (call : Call)

/-- The padding up to the end of the packet that has the final granule. -/
def endPadding (ending : Nat) : Except (Fault String) Nat :=
  match call.finalGranule with
  | some granule =>
    if mux.rawFrames ≤ granule ∧ granule ≤ ending ∧ mux.preSkip.toNat ≤ granule then .ok (ending - granule)
    else .error (.Returned "WebM recorder final presentation endpoint is invalid")
  | none => .ok 0

/-- The Cluster of a packet, and where the raw frames end. -/
def cluster : Except (Fault String) (Cluster × Nat) := do
  failIf (call.packet = [] ∨ 4000 < call.packet.length) (.Returned "WebM recorder packet size is invalid")
  let frames ← (opus.nbSamples call.packet).mapError fun _ => .Returned "WebM recorder packet duration is invalid"
  failIf (frames ≠ 960) (.Returned "WebM recorder requires its 20ms encoder packets")
  let ending ← orError "WebM recorder timestamp overflows" (checkedAdd 64 mux.rawFrames frames)
  failIf (48000 * 3600 < ending) (.Returned "WebM recorder duration exceeds its bound")
  let padding ← mux.endPadding call ending
  let scaled ← orPanic (unsignedWord 64 (mux.rawFrames * 1000))
  let paddingNs ← orPanic (unsignedWord 64 (padding * 1000000000))
  return (⟨scaled / 48000, call.packet, if padding = 0 then none else some (paddingNs / 48000)⟩, ending)

def writePacket : Except (Fault String) Unit × Mux :=
  match mux.cluster opus call with
  | .error fault => (.error fault, mux)
  | .ok (cluster, ending) =>
    if !call.clusterWritten then (.error (.Returned "Could not write WebM Opus packet"), mux)
    else
      let mux := { mux with written := mux.written ++ [cluster], rawFrames := ending }
      if call.finalGranule.isSome then
        if !call.segmentEnded then (.error (.Returned "Could not finalize WebM Segment"), mux)
        else (.ok (), { mux with finished := true })
      else (.ok (), mux)

def packet : Except (Fault String) Unit × Mux :=
  if mux.finished || mux.failed then (.error (.Returned "WebM recorder is closed or failed"), mux)
  else
    match mux.writePacket opus call with
    | (.ok _, mux) => (.ok (), mux)
    | (.error fault, mux) => (.error fault, { mux with failed := true })

end Writing

/-- The recorder after calls that were all accepted. -/
def record (opus : OpusParser) : Mux → List Call → Option Mux
  | mux, [] => some mux
  | mux, call :: calls =>
    match mux.packet opus call with
    | (.ok _, mux) => mux.record opus calls
    | (.error _, _) => none

end Mux

/-- The Block of a Cluster as the player reads it: its relative timestamp is zero and it is not laced. -/
def Cluster.block (cluster : Cluster) : Block :=
  { timeTicks := cluster.timestamp, frames := 1, paddingNs := (cluster.discardPadding.getD 0 : Nat), frames_pos := Nat.one_pos }

/-! ## Recording -/

/-- The frames of the last packet that are discarded. -/
def Mux.padding (mux : Mux) (call : Call) : Nat := call.finalGranule.elim 0 fun granule => mux.rawFrames + 960 - granule

/-- What an accepted packet is: the final granule is in it and not before the pre-skip. -/
structure Accepted (mux : Mux) (call : Call) : Prop where
  bound : mux.rawFrames + 960 ≤ 48000 * 3600
  granule : ∀ granule ∈ call.finalGranule,
    mux.rawFrames ≤ granule ∧ granule ≤ mux.rawFrames + 960 ∧ mux.preSkip.toNat ≤ granule

theorem cluster_ok {opus : OpusParser} {mux : Mux} {call : Call} {cluster : Cluster} {ending : Nat}
    (h : mux.cluster opus call = .ok (cluster, ending)) : Accepted mux call ∧ ending = mux.rawFrames + 960 ∧
      cluster.timestamp = mux.rawFrames * 1000 / 48000 ∧
      cluster.discardPadding.getD 0 = mux.padding call * 1000000000 / 48000 := by
  rw [Mux.cluster] at h
  obtain ⟨-, h⟩ := failIf_bind_eq_ok.mp h
  obtain ⟨frames, -, h⟩ := bind_eq_ok.mp h
  obtain ⟨hframes, h⟩ := failIf_bind_eq_ok.mp h
  obtain rfl := Decidable.not_not.mp hframes
  obtain ⟨sum, hsum, h⟩ := bind_eq_ok.mp h
  obtain rfl : sum = mux.rawFrames + 960 := by
    cases hadd : checkedAdd 64 mux.rawFrames 960 with
    | none =>
      rw [hadd] at hsum
      cases hsum
    | some value =>
      rw [hadd] at hsum
      cases hsum
      exact (checkedAdd_eq_some.mp hadd).1.symm
  obtain ⟨hbound, h⟩ := failIf_bind_eq_ok.mp h
  obtain ⟨padding, hpadding, h⟩ := bind_eq_ok.mp h
  have hgranule : padding = mux.padding call ∧ ∀ granule ∈ call.finalGranule,
      mux.rawFrames ≤ granule ∧ granule ≤ mux.rawFrames + 960 ∧ mux.preSkip.toNat ≤ granule := by
    rw [Mux.endPadding] at hpadding
    cases hfinal : call.finalGranule with
    | none =>
      rw [hfinal] at hpadding
      cases hpadding
      exact ⟨by rw [Mux.padding, hfinal, Option.elim_none], by simp⟩
    | some granule =>
      rw [hfinal] at hpadding
      dsimp only at hpadding
      split at hpadding
      · rename_i hinside
        cases hpadding
        exact ⟨by rw [Mux.padding, hfinal, Option.elim_some], by simpa using hinside⟩
      · cases hpadding
  obtain ⟨rfl, hgranule⟩ := hgranule
  have hsmall : mux.padding call ≤ 960 := by
    rw [Mux.padding]
    cases hfinal : call.finalGranule with
    | none => rw [Option.elim_none]; omega
    | some granule =>
      have hlow := (hgranule granule hfinal).1
      rw [Option.elim_some]
      omega
  rw [unsignedWord_of_lt (by omega), orPanic_some, ok_bind, unsignedWord_of_lt (by omega), orPanic_some, ok_bind] at h
  cases h
  refine ⟨⟨Nat.le_of_not_lt hbound, hgranule⟩, rfl, rfl, ?_⟩
  by_cases hnone : mux.padding call = 0
  · rw [if_pos hnone, hnone, Option.getD_none, Nat.zero_mul, Nat.zero_div]
  · rw [if_neg hnone, Option.getD_some]

/-- The recorder after an accepted packet. -/
theorem packet_ok {opus : OpusParser} {mux after : Mux} {call : Call} {result : Unit}
    (h : mux.packet opus call = (.ok result, after)) : mux.finished = false ∧ Accepted mux call ∧
      after.rawFrames = mux.rawFrames + 960 ∧ after.preSkip = mux.preSkip ∧
      after.finished = call.finalGranule.isSome ∧
      ∃ cluster, after.written = mux.written ++ [cluster] ∧ cluster.timestamp = mux.rawFrames * 1000 / 48000 ∧
        cluster.discardPadding.getD 0 = mux.padding call * 1000000000 / 48000 := by
  rw [Mux.packet] at h
  split at h
  · cases h
  · rename_i hopen
    have hfinished : mux.finished = false := by
      cases hcase : mux.finished with
      | false => rfl
      | true => exact absurd (by rw [hcase]; rfl) hopen
    split at h
    · rename_i _ written hwritten
      cases h
      rw [Mux.writePacket] at hwritten
      split at hwritten
      · cases hwritten
      · rename_i cluster ending hcluster
        obtain ⟨haccepted, rfl, htimestamp, hpadding⟩ := cluster_ok hcluster
        split at hwritten
        · cases hwritten
        · dsimp only at hwritten
          split at hwritten
          · rename_i hfinal
            split at hwritten
            · cases hwritten
            · cases hwritten
              exact ⟨hfinished, haccepted, rfl, rfl, hfinal.symm, cluster, rfl, htimestamp, hpadding⟩
          · rename_i hmore
            cases hwritten
            refine ⟨hfinished, haccepted, rfl, rfl, ?_, cluster, rfl, htimestamp, hpadding⟩
            rw [hfinished]
            exact (Bool.eq_false_iff.mpr hmore).symm
    · cases h

/-- The block of a packet by its number. -/
def numbered (index paddingNs : Nat) : Block :=
  { timeTicks := (20 * index : Nat), frames := 1, paddingNs := paddingNs, frames_pos := Nat.one_pos }

/-- A recorder after packets that carried no final granule. -/
structure Recording (mux : Mux) (count : Nat) : Prop where
  rawFrames : mux.rawFrames = 960 * count
  written : mux.written.map Cluster.block = (List.range count).map fun index => numbered index 0

theorem block_eq_numbered {cluster : Cluster} {index paddingNs : Nat} (htimestamp : cluster.timestamp = 960 * index * 1000 / 48000)
    (hpadding : cluster.discardPadding.getD 0 = paddingNs) : cluster.block = numbered index paddingNs := by
  have htwenty : cluster.timestamp = 20 * index := by
    rw [htimestamp]
    omega
  rw [Cluster.block, numbered, htwenty, hpadding]

/-- What is written when the last call carries the final granule. -/
theorem record_ok {opus : OpusParser} {mux after : Mux} {count granule : Nat} {calls : List Call} {last : Call}
    (h : Recording mux count) (hlast : last.finalGranule = some granule)
    (hrecord : mux.record opus (calls ++ [last]) = some after) :
    let number := count + calls.length
    960 * (number + 1) ≤ 48000 * 3600 ∧ 960 * number ≤ granule ∧ granule ≤ 960 * (number + 1) ∧ mux.preSkip.toNat ≤ granule ∧
      after.written.map Cluster.block = ((List.range number).map fun index => numbered index 0) ++
        [numbered number ((960 * (number + 1) - granule) * 1000000000 / 48000)] := by
  induction calls generalizing mux count with
  | nil =>
    rw [List.nil_append, Mux.record] at hrecord
    split at hrecord
    · rename_i result next hnext
      cases hrecord
      obtain ⟨-, haccepted, -, -, -, cluster, hwritten, htimestamp, hpadding⟩ := packet_ok hnext
      have hbound := haccepted.bound
      obtain ⟨hlow, hhigh, hskip⟩ := haccepted.granule granule hlast
      rw [h.rawFrames] at hbound hlow hhigh htimestamp
      rw [Mux.padding, hlast, Option.elim_some, h.rawFrames] at hpadding
      refine ⟨by omega, hlow, by omega, hskip, ?_⟩
      rw [hwritten, List.map_append, List.map_singleton, h.written, block_eq_numbered htimestamp hpadding]
      rfl
    · cases hrecord
  | cons call calls ih =>
    rw [List.cons_append, Mux.record] at hrecord
    split at hrecord
    · rename_i result next hnext
      obtain ⟨-, haccepted, hraw, hskip, hfinished, cluster, hwritten, htimestamp, hpadding⟩ := packet_ok hnext
      -- the next call is accepted, so that this one did not finish the recording
      have hopen : next.finished = false := by
        cases calls with
        | nil =>
          rw [List.nil_append, Mux.record] at hrecord
          split at hrecord
          · rename_i hthen
            exact (packet_ok hthen).1
          · cases hrecord
        | cons following calls =>
          rw [List.cons_append, Mux.record] at hrecord
          split at hrecord
          · rename_i hthen
            exact (packet_ok hthen).1
          · cases hrecord
      rw [hopen] at hfinished
      have hnone : call.finalGranule = none := Option.isSome_eq_false_iff.mp hfinished.symm |> Option.isNone_iff_eq_none.mp
      rw [h.rawFrames] at htimestamp
      rw [Mux.padding, hnone, Option.elim_none, Nat.zero_mul, Nat.zero_div] at hpadding
      have hrecording : Recording next (count + 1) := by
        constructor
        · rw [hraw, h.rawFrames]
          omega
        · rw [hwritten, List.map_append, List.map_singleton, h.written, block_eq_numbered htimestamp hpadding,
            List.range_succ, List.map_append, List.map_singleton]
      have hrest := ih hrecording hrecord
      rw [List.length_cons, hskip.symm, show count + (calls.length + 1) = count + 1 + calls.length by omega]
      exact hrest
    · cases hrecord

end BetterWebBrowser.WebmOpus
