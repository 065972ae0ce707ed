import UnemployCoin.Snapshots
/-!
# What the snapshot stores answer

The calls that write to the two stores, beside functions of the asset and the height that have
what was last stored for them.
-/

namespace UnemployCoin

open KeyedStore AssetDirectory

/-- A call that writes; `assets` is the asset index when it is made. -/
inductive SnapshotCall where
  | ScheduleSnapshot (assetName : Bytes) (height : ℕ)
  | RemoveSnapshotRequest (assetName : Bytes) (height : ℕ)
  | AddAssetOwnershipSnapshot (assetName : Bytes) (height : ℕ) (assets : AssetsTable)
  | RemoveOwnershipSnapshot (assetName : Bytes) (height : ℕ)

def SnapshotCall.target : SnapshotCall → AssetAtHeight
  | .ScheduleSnapshot assetName height => (assetName, height)
  | .RemoveSnapshotRequest assetName height => (assetName, height)
  | .AddAssetOwnershipSnapshot assetName height _ => (assetName, height)
  | .RemoveOwnershipSnapshot assetName height => (assetName, height)

/-- `pSnapshotRequestDb` and `pAssetSnapshotDb`. -/
structure SnapshotStores where
  requests : CSnapshotRequestDB
  snapshots : CAssetSnapshotDB

def SnapshotStores.empty : SnapshotStores := ⟨∅, ∅⟩

def SnapshotStores.perform (env : Env) (s : SnapshotStores) : SnapshotCall → SnapshotStores
  | .ScheduleSnapshot assetName height =>
    { s with requests := s.requests.scheduleSnapshot assetName height }
  | .RemoveSnapshotRequest assetName height =>
    { s with requests := s.requests.removeSnapshotRequest assetName height }
  | .AddAssetOwnershipSnapshot assetName height assets =>
    { s with snapshots :=
        CAssetSnapshotDB.addAssetOwnershipSnapshot env assets s.snapshots assetName height }
  | .RemoveOwnershipSnapshot assetName height =>
    { s with snapshots := s.snapshots.removeOwnershipSnapshot assetName height }

/-- What was last stored for an asset at a height. -/
structure LastStored where
  request : AssetAtHeight → Option CSnapshotRequestDBEntry
  snapshot : AssetAtHeight → Option CAssetSnapshotDBEntry

def LastStored.empty : LastStored := ⟨fun _ => none, fun _ => none⟩

def LastStored.record (env : Env) (f : LastStored) : SnapshotCall → LastStored
  | .ScheduleSnapshot assetName height =>
    { f with request :=
        Function.update f.request (assetName, height) (some (.of assetName height)) }
  | .RemoveSnapshotRequest assetName height =>
    { f with request := Function.update f.request (assetName, height) none }
  | .AddAssetOwnershipSnapshot assetName height assets =>
    match ownershipSnapshot env assets assetName height with
    | none => f
    | some snapshotEntry =>
      { f with snapshot := Function.update f.snapshot (assetName, height) (some snapshotEntry) }
  | .RemoveOwnershipSnapshot assetName height =>
    { f with snapshot := Function.update f.snapshot (assetName, height) none }

/-- The stores answer what was last stored, and a distribution is computed from it. -/
structure KeyedAnswers (s : SnapshotStores) (f : LastStored) (P : Set AssetAtHeight) : Prop where
  request : ∀ p ∈ P, s.requests.retrieveSnapshotRequest p.1 p.2 = f.request p
  snapshot : ∀ p ∈ P, s.snapshots.retrieveOwnershipSnapshot p.1 p.2 = f.snapshot p
  distribution : ∀ (renv : RewardEnv) (reward : CRewardSnapshot),
    (reward.strOwnershipAsset, reward.nHeight) ∈ P →
    generateDistributionList renv s.snapshots reward =
      distributionList renv reward (f.snapshot (reward.strOwnershipAsset, reward.nHeight))

/-- No height goes on with digits that a name of the others begins with. -/
def NoClash (P : Set AssetAtHeight) : Prop :=
  ∀ p ∈ P, ∀ q ∈ P, ∀ digits, digits ≠ [] → decimal p.2 = decimal q.2 ++ digits →
    q.1 ≠ digits ++ p.1

variable {env : Env} {P : Set AssetAtHeight}

theorem injOn_heightAndName : Set.InjOn heightAndName P ↔ NoClash P := by
  constructor
  · intro hinj p hp q hq digits hne hheight hname
    have hkey : heightAndName p = heightAndName q :=
      (heightAndName_eq_iff p q).2 (.inr ⟨digits, hheight, hname⟩)
    rw [hinj hp hq hkey, List.self_eq_append_right] at hheight
    exact hne hheight
  · have hequal : ∀ p ∈ P, ∀ q ∈ P, NoClash P →
        (∃ digits, decimal p.2 = decimal q.2 ++ digits ∧ q.1 = digits ++ p.1) → p = q := by
      rintro p hp q hq hno ⟨digits, hheight, hname⟩
      by_cases hnil : digits = []
      · subst hnil
        rw [List.append_nil] at hheight
        exact Prod.ext hname.symm (decimal_injective hheight)
      · exact absurd hname (hno p hp q hq digits hnil hheight)
    intro hno p hp q hq hkey
    rcases (heightAndName_eq_iff p q).1 hkey with h | h
    · exact (hequal q hq p hp hno h).symm
    · exact hequal p hp q hq hno h

/-! ## The writes of a call -/

def SnapshotCall.requestWrites : SnapshotCall → List (Write AssetAtHeight CSnapshotRequestDBEntry)
  | .ScheduleSnapshot assetName height => [.put (assetName, height) (.of assetName height)]
  | .RemoveSnapshotRequest assetName height => [.erase (assetName, height)]
  | _ => []

def SnapshotCall.snapshotWrites (env : Env) :
    SnapshotCall → List (Write AssetAtHeight CAssetSnapshotDBEntry)
  | .AddAssetOwnershipSnapshot assetName height assets =>
    (ownershipSnapshot env assets assetName height).toList.map (.put (assetName, height))
  | .RemoveOwnershipSnapshot assetName height => [.erase (assetName, height)]
  | _ => []

theorem heightAndName_ownershipSnapshot {assets : AssetsTable} {assetName : Bytes} {height : ℕ}
    {snapshotEntry : CAssetSnapshotDBEntry}
    (h : ownershipSnapshot env assets assetName height = some snapshotEntry) :
    snapshotEntry.heightAndName = heightAndName (assetName, height) := by
  rw [ownershipSnapshot] at h
  obtain ⟨owners, -, h⟩ := Option.bind_eq_some_iff.1 h
  split at h
  · cases h
  · cases h
    rfl

theorem perform_requests (s : SnapshotStores) (call : SnapshotCall) :
    (s.perform env call).requests =
      call.requestWrites.foldl (Write.perform heightAndName) s.requests := by
  cases call <;> rfl

theorem perform_snapshots (s : SnapshotStores) (call : SnapshotCall) :
    (s.perform env call).snapshots =
      (call.snapshotWrites env).foldl (Write.perform heightAndName) s.snapshots := by
  cases call with
  | AddAssetOwnershipSnapshot assetName height assets =>
    rw [SnapshotStores.perform, SnapshotCall.snapshotWrites,
      CAssetSnapshotDB.addAssetOwnershipSnapshot]
    cases h : ownershipSnapshot env assets assetName height with
    | none => rfl
    | some snapshotEntry =>
      dsimp only
      rw [heightAndName_ownershipSnapshot h]
      rfl
  | _ => rfl

theorem record_request (f : LastStored) (call : SnapshotCall) :
    (f.record env call).request = call.requestWrites.foldl Write.record f.request := by
  cases call with
  | AddAssetOwnershipSnapshot assetName height assets =>
    rw [LastStored.record]
    split <;> rfl
  | _ => rfl

theorem record_snapshot (f : LastStored) (call : SnapshotCall) :
    (f.record env call).snapshot = (call.snapshotWrites env).foldl Write.record f.snapshot := by
  cases call with
  | AddAssetOwnershipSnapshot assetName height assets =>
    rw [LastStored.record, SnapshotCall.snapshotWrites]
    cases ownershipSnapshot env assets assetName height <;> rfl
  | _ => rfl

theorem index_requestWrites {call : SnapshotCall} {w : Write AssetAtHeight CSnapshotRequestDBEntry}
    (h : w ∈ call.requestWrites) : w.index = call.target := by
  cases call with
  | ScheduleSnapshot assetName height =>
    rw [List.mem_singleton.1 h]
    rfl
  | RemoveSnapshotRequest assetName height =>
    rw [List.mem_singleton.1 h]
    rfl
  | _ => cases h

theorem index_snapshotWrites {call : SnapshotCall} {w : Write AssetAtHeight CAssetSnapshotDBEntry}
    (h : w ∈ call.snapshotWrites env) : w.index = call.target := by
  cases call with
  | AddAssetOwnershipSnapshot assetName height assets =>
    obtain ⟨snapshotEntry, -, rfl⟩ := List.mem_map.1 h
    rfl
  | RemoveOwnershipSnapshot assetName height =>
    rw [List.mem_singleton.1 h]
    rfl
  | _ => cases h

/-! ## Runs -/

def Keyed (s : SnapshotStores) (f : LastStored) (P : Set AssetAtHeight) : Prop :=
  (∀ p ∈ P, s.requests.find? (heightAndName p) = f.request p) ∧
    ∀ p ∈ P, s.snapshots.find? (heightAndName p) = f.snapshot p

theorem Keyed.answers {s : SnapshotStores} {f : LastStored} (h : Keyed s f P) :
    KeyedAnswers s f P where
  request := h.1
  snapshot := h.2
  distribution := fun renv reward hp => by
    rw [generateDistributionList]
    exact congrArg (distributionList renv reward) (h.2 _ hp)

/-- **One call.** -/
theorem Keyed.perform {s : SnapshotStores} {f : LastStored} {call : SnapshotCall}
    (h : Keyed s f P) (hinj : Set.InjOn heightAndName P) (hcall : call.target ∈ P) :
    Keyed (s.perform env call) (f.record env call) P := by
  constructor
  · intro p hp
    rw [perform_requests, record_request]
    exact find?_foldl_perform hinj h.1 (fun w hw => index_requestWrites hw ▸ hcall) hp
  · intro p hp
    rw [perform_snapshots, record_snapshot]
    exact find?_foldl_perform hinj h.2 (fun w hw => index_snapshotWrites hw ▸ hcall) hp

/-- **A sequence of calls.** -/
theorem Keyed.performAll {calls : List SnapshotCall} {s : SnapshotStores} {f : LastStored}
    (h : Keyed s f P) (hinj : Set.InjOn heightAndName P)
    (hcalls : ∀ call ∈ calls, call.target ∈ P) :
    Keyed (calls.foldl (SnapshotStores.perform env) s) (calls.foldl (LastStored.record env) f)
      P := by
  induction calls generalizing s f with
  | nil => exact h
  | cons call calls ih =>
    rw [List.forall_mem_cons] at hcalls
    exact ih (h.perform hinj hcalls.1) hcalls.2

/-- **The stores are keyed by asset and height** exactly when no two of those in use clash. -/
theorem snapshotStores_keyed_iff (env : Env) (P : Set AssetAtHeight) :
    (∀ calls : List SnapshotCall, (∀ call ∈ calls, call.target ∈ P) →
      KeyedAnswers (calls.foldl (SnapshotStores.perform env) .empty)
        (calls.foldl (LastStored.record env) .empty) P) ↔
    NoClash P := by
  rw [← injOn_heightAndName]
  constructor
  · intro h p hp q hq hkey
    by_contra hne
    -- The request for the first asset is found for the second.
    have hfound := (h [.ScheduleSnapshot p.1 p.2] (List.forall_mem_singleton.2 hp)).request q hq
    simp only [List.foldl_cons, List.foldl_nil, SnapshotStores.perform, LastStored.record,
      CSnapshotRequestDB.retrieveSnapshotRequest, CSnapshotRequestDB.scheduleSnapshot,
      CSnapshotRequestDBEntry.of] at hfound
    rw [StdMap.find?_assign, if_pos hkey.symm, Function.update_of_ne (Ne.symm hne)] at hfound
    cases hfound
  · intro hinj calls hcalls
    have hempty : Keyed .empty .empty P := ⟨fun _ _ => rfl, fun _ _ => rfl⟩
    exact (hempty.performAll hinj hcalls).answers

/-- A request for an asset that is **lost** when one for another asset is removed, and a snapshot
that is found for another asset; both names are valid. -/
theorem snapshotRequest_lost :
    isAssetNameValid (ascii "ABC") = some .ROOT ∧ isAssetNameValid (ascii "0ABC") = some .ROOT ∧
    CSnapshotRequestDB.retrieveSnapshotRequest
      (CSnapshotRequestDB.removeSnapshotRequest
        (CSnapshotRequestDB.scheduleSnapshot ∅ (ascii "ABC") 10) (ascii "0ABC") 1)
      (ascii "ABC") 10 = none ∧
    CAssetSnapshotDB.retrieveOwnershipSnapshot
      (StdMap.assign ∅ (heightAndName (ascii "0ABC", 1)) (.of (ascii "0ABC") 1 ∅))
      (ascii "ABC") 10 = some (.of (ascii "0ABC") 1 ∅) := by
  refine ⟨by decide, by decide, ?_, ?_⟩
  · rw [CSnapshotRequestDB.retrieveSnapshotRequest, CSnapshotRequestDB.removeSnapshotRequest,
      StdMap.find?_erase, if_pos (by decide)]
  · rw [CAssetSnapshotDB.retrieveOwnershipSnapshot, StdMap.find?_assign, if_pos (by decide)]

end UnemployCoin
