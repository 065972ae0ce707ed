import UnemployCoin.AddrManFile
/-!
# Runs of the address manager

Any sequence of calls, with any outcome of the random draws, from an empty manager.
-/

namespace UnemployCoin

open Buckets StdMap

/-- A call, with what is drawn and what the clock says. -/
inductive AddrManCall where
  | add (addr : CAddress) (source : CNetAddr) (nTimePenalty : ℤ) (draws : CAddrMan.AddDraws)
  | good (addr : CService) (nTime : ℤ) (rnd : ℕ)
  | attempt (addr : CService) (fCountFailure : Bool) (nTime : ℤ)
  | connected (addr : CService) (nTime : ℤ)
  | setServices (addr : CService) (nServices : UInt64)
  | select (newOnly : Bool) (coin : ℕ) (draws : List CAddrMan.SelectDraws)
  | getAddr (vAddr : List CAddress) (draw : ℕ → ℕ × ℤ)
  /-- The manager is written to its file and read again. -/
  | reload (nKey : uint256)

variable (hash : Bytes → UInt64)

namespace CAddrMan

/-- The state after a call; `none` if an assertion fails or an id has no entry. -/
def call (s : CAddrMan) : AddrManCall → Option CAddrMan
  | .add addr source nTimePenalty draws => (s.add_ hash addr source nTimePenalty draws).map Prod.snd
  | .good addr nTime rnd => s.good_ hash addr nTime rnd
  | .attempt addr fCountFailure nTime => some (s.attempt_ addr fCountFailure nTime)
  | .connected addr nTime => some (s.connected_ addr nTime)
  | .setServices addr nServices => some (s.setServices_ addr nServices)
  | .select newOnly coin draws => (s.select_ newOnly coin draws).map fun _ => s
  | .getAddr vAddr draw => (s.getAddr_ vAddr draw).map Prod.fst
  | .reload nKey => s.serialize.bind (unserialize hash nKey)

/-- What a call has to meet: an entry that is created gets a fresh id, and times are after the
epoch. -/
def Meets (s : CAddrMan) : AddrManCall → Prop
  | .add addr _ _ _ => addr.isRoutable = true → s.find addr.toCNetAddr = none → s.FreshId
  | .good _ nTime _ => 0 < nTime
  | .attempt _ _ nTime => 0 ≤ nTime
  | _ => True

/-- **The conditions on the five structures.** -/
structure Consistent (s : CAddrMan) : Prop where
  /-- The vector is a permutation of the ids. -/
  random : s.vRandom.Perm s.mapInfo.keys
  nRandomPos : ∀ i x, s.mapInfo.find? i = some x →
    0 ≤ x.nRandomPos ∧ s.vRandom[x.nRandomPos.toNat]? = some i
  /-- An entry is tried, or it has one to eight references that are really there. -/
  entry : ∀ i x, s.mapInfo.find? i = some x →
    (x.fInTried = true ∧ x.nRefCount = 0 ∧ ∃ b p, s.vvTried b p = i) ∨
    (x.fInTried = false ∧ 1 ≤ x.nRefCount ∧ x.nRefCount ≤ ADDRMAN_NEW_BUCKETS_PER_ADDRESS ∧
      x.nRefCount = refs s.vvNew (fun b => x.getBucketPosition hash s.nKey true b) i)
  nTried : s.nTried = ((triedIds s.entries).length : ℤ)
  nNew : s.nNew = ((newIds s.entries).length : ℤ)
  inverse : ∀ a i, s.mapAddr.find? a = some i ↔ ∃ x, s.mapInfo.find? i = some x ∧ x.toCNetAddr = a
  /-- What stands in a bucket has an entry, and stands where its hashes say. -/
  newCell : ∀ b p, s.vvNew b p ≠ -1 → ∃ x, s.mapInfo.find? (s.vvNew b p) = some x ∧
    x.fInTried = false ∧ x.getBucketPosition hash s.nKey true b = p
  triedCell : ∀ b p, s.vvTried b p ≠ -1 → ∃ x, s.mapInfo.find? (s.vvTried b p) = some x ∧
    x.fInTried = true ∧ x.getTriedBucket hash s.nKey = b ∧
    x.getBucketPosition hash s.nKey false b = p

variable {hash} {s : CAddrMan}

theorem clear_sound (nKey : uint256) : Sound hash (clear nKey) := by
  have h := @loading_clear hash nKey ⟨1, 32, nKey, 0, 0, 0, [], []⟩
  exact h.inv.limbo_congr fun i x hx _ _ =>
    absurd ((find?_empty i).symm.trans hx) (by simp)

theorem Sound.consistent (h : Sound hash s) : Consistent hash s where
  random := by
    apply (List.perm_ext_iff_of_nodup h.indexed.random.nodup s.mapInfo.keys_nodup).2
    intro i
    rw [h.indexed.random.mem_iff, mem_keys, count_eq_true]
    constructor
    · rintro ⟨z, hz⟩
      obtain ⟨x, hx, -⟩ := Option.map_eq_some_iff.1 hz
      exact ⟨x, hx⟩
    · rintro ⟨x, hx⟩
      exact ⟨x.nRandomPos, by rw [hx, Option.map_some]⟩
  nRandomPos := by
    intro i x hx
    obtain ⟨k, hpos, hk⟩ := h.indexed.position hx
    rw [hpos]
    exact ⟨Int.natCast_nonneg k, hk⟩
  entry := by
    intro i x hx
    have hent := h.tabled.entry i x hx
    have hnonneg := h.nRefCount_nonneg hx
    cases ht : x.fInTried with
    | true => exact .inl ⟨rfl, hent.unreferenced ht, _, _, hent.home ht⟩
    | false =>
      have hne : x.nRefCount ≠ 0 := fun href => Set.notMem_empty i (h.limbo hx ht href)
      exact .inr ⟨rfl, by omega, hent.most, hent.refs⟩
  nTried := (length_tried h).symm
  nNew := (length_new h).symm
  inverse := h.indexed.addr
  newCell := by
    intro b p hv
    obtain ⟨x, hx, hslot⟩ := h.tabled.newCell b p _ rfl hv
    refine ⟨x, hx, ?_, hslot⟩
    by_contra ht
    have href := (h.tabled.entry _ x hx).unreferenced (Bool.not_eq_false _ ▸ ht)
    exact h.tabled.notMem_new hx hv href b p rfl
  triedCell := by
    intro b p hv
    obtain ⟨x, hx, ht, hb, hp⟩ := h.tabled.triedCell b p _ rfl hv
    refine ⟨x, hx, ht, hb, ?_⟩
    rw [← hb]
    exact hp

/-- **One call** that meets the condition does not fail. -/
theorem call_spec (h : Sound hash s) {c : AddrManCall} (hc : s.Meets c) :
    ∃ t, s.call hash c = some t ∧ Sound hash t ∧ t.nKey = s.nKey := by
  cases c with
  | add addr source nTimePenalty draws =>
    obtain ⟨b, t, ht, hsound, hkey⟩ := add_spec h addr source nTimePenalty draws hc
    exact ⟨t, by rw [call, ht, Option.map_some], hsound, hkey⟩
  | good addr nTime rnd => exact good_spec h addr hc rnd
  | attempt addr fCountFailure nTime => exact ⟨_, rfl, attempt_spec h addr fCountFailure hc⟩
  | connected addr nTime => exact ⟨_, rfl, connected_spec h addr nTime⟩
  | setServices addr nServices => exact ⟨_, rfl, setServices_spec h addr nServices⟩
  | select newOnly coin draws =>
    obtain ⟨r, hr⟩ := select_spec h newOnly coin draws
    exact ⟨s, by rw [call, hr, Option.map_some], h, rfl⟩
  | getAddr vAddr draw =>
    obtain ⟨t, vAddr', ht, hsound, hkey⟩ := getAddr_spec h vAddr draw
    exact ⟨t, by rw [call, ht, Option.map_some], hsound, hkey⟩
  | reload nKey => exact roundTrip_spec h nKey

/-- **A whole run** does not fail. -/
theorem exec_spec {calls : List AddrManCall} (h : Sound hash s)
    (hcalls : (Machine.mk (call hash)).Along Meets s calls) :
    ∃ t, (Machine.mk (call hash)).exec s calls = some t ∧ Sound hash t ∧ t.nKey = s.nKey := by
  induction calls generalizing s with
  | nil => exact ⟨s, rfl, h, rfl⟩
  | cons c calls ih =>
    obtain ⟨t, ht, hsound, hkey⟩ := call_spec h hcalls.1
    obtain ⟨u, hu, hsound', hkey'⟩ := ih hsound (hcalls.2 t ht)
    exact ⟨u, Machine.exec_cons.2 ⟨t, ht, hu⟩, hsound', hkey'.trans hkey⟩

end CAddrMan

def addrManMachine : Machine CAddrMan AddrManCall := ⟨CAddrMan.call hash⟩

open CAddrMan in
/-- **The address manager is consistent** in every state that a run reaches, if all its calls meet
the condition, and no call fails. -/
theorem addrMan_consistent (nKey : uint256) (hkey : nKey ≠ 0) (calls : List AddrManCall)
    (hcalls : (addrManMachine hash).Along Meets (clear nKey) calls) (pre post : List AddrManCall)
    (hpre : calls = pre ++ post) :
    ∃ s, (addrManMachine hash).exec (clear nKey) pre = some s ∧ s.check_ hash = 0 ∧
      Consistent hash s := by
  rw [hpre] at hcalls
  obtain ⟨s, hs, hsound, hsame⟩ := exec_spec (clear_sound nKey) hcalls.of_append.1
  refine ⟨s, hs, check_spec hsound ?_, hsound.consistent⟩
  rw [hsame]
  exact hkey

def lastByteHash (b : Bytes) : UInt64 := (b.getLastD 0).toUInt64

/-- `250.1.n.1`. -/
def floodAddr (n : UInt8) (port : UInt16) : CAddress :=
  ⟨⟨⟨[0, 0, 0, 0, 0, 0, 0, 0, 0, 0, 0xff, 0xff, 250, 1, n, 1], rfl⟩, port⟩, 1, 100000000⟩

def floodCall (addr : CAddress) : AddrManCall :=
  .add addr (floodAddr 9 0).toCNetAddr 0 ⟨100000000, 100000000, 0⟩

/-- One address is added, connected to, and read again from the file. -/
theorem reloadRun_consistent :
    ∃ s, (addrManMachine lastByteHash).exec (CAddrMan.clear 1)
        [floodCall (floodAddr 1 8192), .good (floodAddr 1 8192).toCService 100000000 5, .reload 2] =
          some s ∧ s.check_ lastByteHash = 0 ∧ CAddrMan.Consistent lastByteHash s := by
  apply addrMan_consistent lastByteHash 1 (by decide) _ _ _ [] (List.append_nil _).symm
  refine ⟨?_, fun _ _ => ⟨?_, fun _ _ => ⟨trivial, fun _ _ => trivial⟩⟩⟩
  · intro _ _
    exact ⟨by decide, find?_empty _⟩
  · show (0 : ℤ) < 100000000
    decide

end UnemployCoin
