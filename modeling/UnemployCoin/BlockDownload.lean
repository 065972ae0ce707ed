import UnemployCoin.AssetTypes
import UnemployCoin.Lib.LinkedList
import UnemployCoin.Lib.Run
import UnemployCoin.Lib.Slots
import Mathlib.Algebra.Order.BigOperators.Group.List
/-!
# Blocks in flight

The bookkeeping of block downloads in `net_processing.cpp`: one map from the hash of a block to the
peer that it was requested from, a list of requests with two counters for every peer, and counters
over all peers.  The counters are `int`s there; all callers keep at most 16 blocks per peer
(`MAX_BLOCKS_IN_TRANSIT_PER_PEER`), so integers do.
-/

namespace UnemployCoin

open StdMap

abbrev NodeId := ℤ

/-! ## The state -/

structure QueuedBlock where
  hash : uint256
  pindex : Option uint256
  fValidatedHeaders : Bool
  /-- Whether there is a `PartiallyDownloadedBlock`. -/
  partialBlock : Bool

/-- What the operations here read and write of a peer. -/
structure CNodeState where
  fCurrentlyConnected : Bool
  nMisbehavior : ℤ
  fSyncStarted : Bool
  nStallingSince : ℤ
  vBlocksInFlight : LinkedList QueuedBlock
  nDownloadingSince : ℤ
  nBlocksInFlight : ℤ
  nBlocksInFlightValidHeaders : ℤ
  fPreferredDownload : Bool
  m_protect : Bool

def CNodeState.new : CNodeState := ⟨false, 0, false, 0, ∅, 0, 0, 0, false, false⟩

structure NetState where
  mapBlocksInFlight : StdMap uint256 (NodeId × ℕ)
  mapNodeState : StdMap NodeId CNodeState
  nSyncStarted : ℤ
  nPreferredDownload : ℤ
  nPeersWithValidatedDownloads : ℤ
  g_outbound_peers_with_protect_from_disconnect : ℤ

def NetState.start : NetState := ⟨∅, ∅, 0, 0, 0, 0⟩

def MAX_OUTBOUND_PEERS_TO_PROTECT_FROM_DISCONNECT : ℤ := 4

/-! ## The operations -/

/-- What `MarkBlockAsReceived` does with the peer. -/
def CNodeState.receive (state : CNodeState) (it : ℕ) (entry : QueuedBlock) (now : ℤ) : CNodeState :=
  { state with
    nBlocksInFlightValidHeaders :=
      state.nBlocksInFlightValidHeaders - entry.fValidatedHeaders.toInt
    -- The first request was answered, so the next one starts now.
    nDownloadingSince :=
      if state.vBlocksInFlight.begin? = some it then max state.nDownloadingSince now
      else state.nDownloadingSince
    vBlocksInFlight := state.vBlocksInFlight.erase it
    nBlocksInFlight := state.nBlocksInFlight - 1
    nStallingSince := 0 }

/-- `MarkBlockAsReceived`; `now` is the time in microseconds. -/
def markBlockAsReceived (s : NetState) (hash : uint256) (now : ℤ) : Option (Bool × NetState) :=
  match s.mapBlocksInFlight.find? hash with
  | none => some (false, s)
  | some (nodeid, it) => do
    let state ← s.mapNodeState.find? nodeid
    let entry ← state.vBlocksInFlight.deref it
    let state' := state.receive it entry now
    return (true,
      { s with
        nPeersWithValidatedDownloads :=
          if state'.nBlocksInFlightValidHeaders = 0 ∧ entry.fValidatedHeaders = true then
            s.nPeersWithValidatedDownloads - 1
          else s.nPeersWithValidatedDownloads
        mapNodeState := s.mapNodeState.assign nodeid state'
        mapBlocksInFlight := s.mapBlocksInFlight.erase hash })

/-- What `MarkBlockAsInFlight` does with the peer. -/
def CNodeState.request (state : CNodeState) (entry : QueuedBlock) (now : ℤ) : CNodeState :=
  { state with
    vBlocksInFlight := state.vBlocksInFlight.pushBack entry
    nBlocksInFlight := state.nBlocksInFlight + 1
    nBlocksInFlightValidHeaders :=
      state.nBlocksInFlightValidHeaders + entry.fValidatedHeaders.toInt
    nDownloadingSince := if state.nBlocksInFlight + 1 = 1 then now else state.nDownloadingSince }

/-- The part of `MarkBlockAsInFlight` for a block that is not in flight from the same peer.  It
returns the iterator that `pit` then points at. -/
def requestBlock (s : NetState) (nodeid : NodeId) (hash : uint256) (pindex : Option uint256)
    (pit : Bool) (now : ℤ) : Option (ℕ × NetState) := do
  let (_, s) ← markBlockAsReceived s hash now
  let state ← s.mapNodeState.find? nodeid
  let it := state.vBlocksInFlight.next
  let state' := state.request ⟨hash, pindex, pindex.isSome, pit⟩ now
  return (it,
    { s with
      mapNodeState := s.mapNodeState.assign nodeid state'
      nPeersWithValidatedDownloads :=
        if state'.nBlocksInFlightValidHeaders = 1 ∧ pindex.isSome = true then
          s.nPeersWithValidatedDownloads + 1
        else s.nPeersWithValidatedDownloads
      mapBlocksInFlight := s.mapBlocksInFlight.emplace hash (nodeid, it) })

/-- `MarkBlockAsInFlight`.  Nothing happens if the block is in flight from this peer already. -/
def markBlockAsInFlight (s : NetState) (nodeid : NodeId) (hash : uint256) (pindex : Option uint256)
    (pit : Bool) (now : ℤ) : Option (Bool × ℕ × NetState) := do
  let _ ← s.mapNodeState.find? nodeid
  match s.mapBlocksInFlight.find? hash with
  | some (nodeid', it) =>
    if nodeid' = nodeid then return (false, it, s)
    return (true, ← requestBlock s nodeid hash pindex pit now)
  | none => return (true, ← requestBlock s nodeid hash pindex pit now)

/-- `InitializeNode`.  A peer that is known already is left as it is. -/
def initializeNode (s : NetState) (nodeid : NodeId) : NetState :=
  { s with mapNodeState := s.mapNodeState.emplace nodeid .new }

/-- The assertions of `FinalizeNode` after the last peer has gone. -/
def NetState.idle (s : NetState) : Bool :=
  decide (s.mapBlocksInFlight.size = 0 ∧ s.nPreferredDownload = 0 ∧
    s.nPeersWithValidatedDownloads = 0 ∧ s.g_outbound_peers_with_protect_from_disconnect = 0)

/-- What `FinalizeNode` leaves when a peer goes. -/
def NetState.without (s : NetState) (nodeid : NodeId) (state : CNodeState) : NetState where
  nSyncStarted := s.nSyncStarted - state.fSyncStarted.toInt
  mapBlocksInFlight := (state.vBlocksInFlight.values.map QueuedBlock.hash).foldl
    (fun m hash => m.erase hash) s.mapBlocksInFlight
  nPreferredDownload := s.nPreferredDownload - state.fPreferredDownload.toInt
  nPeersWithValidatedDownloads := s.nPeersWithValidatedDownloads -
    (decide (state.nBlocksInFlightValidHeaders ≠ 0)).toInt
  g_outbound_peers_with_protect_from_disconnect :=
    s.g_outbound_peers_with_protect_from_disconnect - state.m_protect.toInt
  mapNodeState := s.mapNodeState.erase nodeid

/-- `FinalizeNode`, and `fUpdateConnectionTime`. -/
def finalizeNode (s : NetState) (nodeid : NodeId) : Option (Bool × NetState) := do
  let state ← s.mapNodeState.find? nodeid
  let s' := s.without nodeid state
  guard (s'.nPeersWithValidatedDownloads ≥ 0)
  guard (s'.g_outbound_peers_with_protect_from_disconnect ≥ 0)
  guard (s'.mapNodeState.size = 0 → s'.idle = true)
  return (decide (state.nMisbehavior = 0) && state.fCurrentlyConnected, s')

def updatePreferredDownload (s : NetState) (nodeid : NodeId)
    (fInbound fWhitelisted fOneShot fClient : Bool) : Option NetState := do
  let state ← s.mapNodeState.find? nodeid
  let fPreferredDownload := (!fInbound || fWhitelisted) && !fOneShot && !fClient
  return { s with
    nPreferredDownload :=
      s.nPreferredDownload - state.fPreferredDownload.toInt + fPreferredDownload.toInt
    mapNodeState :=
      s.mapNodeState.assign nodeid { state with fPreferredDownload := fPreferredDownload } }

/-- The part of `ProcessHeadersMessage` that protects an outbound peer with enough work. -/
def protectFromDisconnect (s : NetState) (nodeid : NodeId) : Option NetState := do
  let state ← s.mapNodeState.find? nodeid
  if s.g_outbound_peers_with_protect_from_disconnect <
      MAX_OUTBOUND_PEERS_TO_PROTECT_FROM_DISCONNECT ∧ state.m_protect = false then
    return { s with
      g_outbound_peers_with_protect_from_disconnect :=
        s.g_outbound_peers_with_protect_from_disconnect + 1
      mapNodeState := s.mapNodeState.assign nodeid { state with m_protect := true } }
  return s

/-- The parts of `SendMessages` that start and stop the synchronization with a peer. -/
def setSyncStarted (s : NetState) (nodeid : NodeId) (fSyncStarted : Bool) : Option NetState := do
  let state ← s.mapNodeState.find? nodeid
  if state.fSyncStarted = fSyncStarted then return s
  return { s with
    nSyncStarted := if fSyncStarted then s.nSyncStarted + 1 else s.nSyncStarted - 1
    mapNodeState := s.mapNodeState.assign nodeid { state with fSyncStarted := fSyncStarted } }

inductive NetEvent where
  | initializeNode (nodeid : NodeId)
  | finalizeNode (nodeid : NodeId)
  | markBlockAsInFlight (nodeid : NodeId) (hash : uint256) (pindex : Option uint256) (pit : Bool)
      (now : ℤ)
  | markBlockAsReceived (hash : uint256) (now : ℤ)
  | updatePreferredDownload (nodeid : NodeId) (fInbound fWhitelisted fOneShot fClient : Bool)
  | protectFromDisconnect (nodeid : NodeId)
  | setSyncStarted (nodeid : NodeId) (fSyncStarted : Bool)

/-- The bookkeeping as a machine; it stops where an assertion fails. -/
def downloads : Machine NetState NetEvent where
  step s
    | .initializeNode nodeid => some (initializeNode s nodeid)
    | .finalizeNode nodeid => (finalizeNode s nodeid).map Prod.snd
    | .markBlockAsInFlight nodeid hash pindex pit now =>
      (markBlockAsInFlight s nodeid hash pindex pit now).map fun r => r.2.2
    | .markBlockAsReceived hash now => (markBlockAsReceived s hash now).map Prod.snd
    | .updatePreferredDownload nodeid fInbound fWhitelisted fOneShot fClient =>
      updatePreferredDownload s nodeid fInbound fWhitelisted fOneShot fClient
    | .protectFromDisconnect nodeid => protectFromDisconnect s nodeid
    | .setSyncStarted nodeid fSyncStarted => setSyncStarted s nodeid fSyncStarted

/-! ## The invariant -/

def NetState.blocksOf (s : NetState) (nodeid : NodeId) : Option (LinkedList QueuedBlock) :=
  (s.mapNodeState.find? nodeid).map CNodeState.vBlocksInFlight

/-- **The map and the lists say the same**: an iterator is stored for a hash exactly if it points at
a request of that block. -/
def Located (s : NetState) : Prop :=
  ∀ hash nodeid it, s.mapBlocksInFlight.find? hash = some (nodeid, it) ↔
    ∃ blocks ∈ s.blocksOf nodeid, ∃ entry ∈ blocks.deref it, entry.hash = hash

structure CNodeState.Counted (state : CNodeState) : Prop where
  total : state.nBlocksInFlight = state.vBlocksInFlight.values.length
  valid : state.nBlocksInFlightValidHeaders =
    state.vBlocksInFlight.values.countP QueuedBlock.fValidatedHeaders

def NetState.peersWith (s : NetState) (p : CNodeState → Bool) : ℤ :=
  s.mapNodeState.sum fun _ state => (p state).toInt

structure DownloadsTracked (s : NetState) : Prop where
  located : Located s
  counted : ∀ nodeid state, s.mapNodeState.find? nodeid = some state → state.Counted
  peers : s.nPeersWithValidatedDownloads =
    s.peersWith fun state => decide (0 < state.nBlocksInFlightValidHeaders)
  preferred : s.nPreferredDownload = s.peersWith CNodeState.fPreferredDownload
  syncing : s.nSyncStarted = s.peersWith CNodeState.fSyncStarted
  protect : s.g_outbound_peers_with_protect_from_disconnect = s.peersWith CNodeState.m_protect

theorem DownloadsTracked.start : DownloadsTracked .start where
  located := by
    intro hash nodeid it
    constructor
    · intro h
      cases h
    · rintro ⟨blocks, hblocks, -⟩
      cases hblocks
  counted := fun nodeid state h => by cases h
  peers := rfl
  preferred := rfl
  syncing := rfl
  protect := rfl

variable {s s' : NetState} {nodeid nodeid' : NodeId} {state state' : CNodeState}
  {p : CNodeState → Bool}

/-! ## The counters over all peers -/

theorem toInt_nonneg (b : Bool) : 0 ≤ b.toInt := by cases b <;> decide

theorem peersWith_nonneg : 0 ≤ s.peersWith p := by
  unfold NetState.peersWith StdMap.sum
  refine List.sum_nonneg fun n hn => ?_
  obtain ⟨e, -, rfl⟩ := List.mem_map.1 hn
  exact toInt_nonneg _

theorem peersWith_assign (h : s.mapNodeState.find? nodeid = some state)
    (hs' : s'.mapNodeState = s.mapNodeState.assign nodeid state') :
    s'.peersWith p + (p state).toInt = s.peersWith p + (p state').toInt := by
  unfold NetState.peersWith
  rw [hs']
  exact sum_replace _ h

theorem peersWith_change (h : s.mapNodeState.find? nodeid = some state)
    (hmap : s'.mapNodeState = s.mapNodeState.assign nodeid state') {n n' : ℤ}
    (hn : n = s.peersWith p) (hn' : n' + (p state).toInt = n + (p state').toInt) :
    n' = s'.peersWith p := by
  have hsum := peersWith_assign (p := p) h hmap
  omega

theorem peersWith_erase (h : s.mapNodeState.find? nodeid = some state)
    (hs' : s'.mapNodeState = s.mapNodeState.erase nodeid) :
    s.peersWith p = (p state).toInt + s'.peersWith p := by
  unfold NetState.peersWith
  rw [hs']
  exact sum_erase _ h

theorem blocksOf_assign (hs' : s'.mapNodeState = s.mapNodeState.assign nodeid state') :
    s'.blocksOf nodeid' =
      if nodeid' = nodeid then some state'.vBlocksInFlight else s.blocksOf nodeid' := by
  unfold NetState.blocksOf
  rw [hs', find?_assign]
  split <;> rfl

theorem blocksOf_of_find? (h : s.mapNodeState.find? nodeid = some state) :
    s.blocksOf nodeid = some state.vBlocksInFlight := by
  unfold NetState.blocksOf
  rw [h]
  rfl

theorem DownloadsTracked.update (hs : DownloadsTracked s)
    (h : s.mapNodeState.find? nodeid = some state)
    (hmap : s'.mapNodeState = s.mapNodeState.assign nodeid state')
    (hflight : s'.mapBlocksInFlight = s.mapBlocksInFlight)
    (hpeers : s'.nPeersWithValidatedDownloads = s.nPeersWithValidatedDownloads)
    (hblocks : state'.vBlocksInFlight = state.vBlocksInFlight)
    (htotal : state'.nBlocksInFlight = state.nBlocksInFlight)
    (hvalid : state'.nBlocksInFlightValidHeaders = state.nBlocksInFlightValidHeaders)
    (hpreferred : s'.nPreferredDownload + state.fPreferredDownload.toInt =
      s.nPreferredDownload + state'.fPreferredDownload.toInt)
    (hsyncing : s'.nSyncStarted + state.fSyncStarted.toInt =
      s.nSyncStarted + state'.fSyncStarted.toInt)
    (hprotect : s'.g_outbound_peers_with_protect_from_disconnect + state.m_protect.toInt =
      s.g_outbound_peers_with_protect_from_disconnect + state'.m_protect.toInt) :
    DownloadsTracked s' := by
  have hlists : s'.blocksOf = s.blocksOf := by
    funext nodeid'
    rw [blocksOf_assign hmap]
    split
    · rename_i heq
      rw [heq, blocksOf_of_find? h, hblocks]
    · rfl
  constructor
  · intro hash nodeid' it
    rw [hflight, hlists]
    exact hs.located hash nodeid' it
  · intro nodeid' state'' hstate''
    rw [hmap, find?_assign] at hstate''
    split at hstate''
    · cases hstate''
      have hcounted := hs.counted nodeid state h
      exact ⟨by rw [htotal, hblocks, hcounted.total], by rw [hvalid, hblocks, hcounted.valid]⟩
    · exact hs.counted nodeid' state'' hstate''
  · exact peersWith_change h hmap hs.peers (by rw [hpeers, hvalid])
  · exact peersWith_change h hmap hs.preferred hpreferred
  · exact peersWith_change h hmap hs.syncing hsyncing
  · exact peersWith_change h hmap hs.protect hprotect

/-! ## A block that is received -/

variable {entry : QueuedBlock} {now : ℤ} {it : ℕ}

theorem CNodeState.Counted.receive (h : state.Counted)
    (hentry : state.vBlocksInFlight.deref it = some entry) :
    (state.receive it entry now).Counted := by
  have hperm := LinkedList.perm_erase hentry
  have hlength := hperm.length_eq
  have hcount := hperm.countP_eq QueuedBlock.fValidatedHeaders
  have htotal := h.total
  have hvalid := h.valid
  rw [List.length_cons] at hlength
  rw [List.countP_cons] at hcount
  constructor
  · show state.nBlocksInFlight - 1 = ((state.vBlocksInFlight.erase it).values.length : ℤ)
    omega
  · show state.nBlocksInFlightValidHeaders - entry.fValidatedHeaders.toInt =
      ((state.vBlocksInFlight.erase it).values.countP QueuedBlock.fValidatedHeaders : ℤ)
    rw [hvalid, hcount]
    cases entry.fValidatedHeaders <;> simp

theorem CNodeState.Counted.valid_nonneg (h : state.Counted) :
    0 ≤ state.nBlocksInFlightValidHeaders := by
  rw [h.valid]
  exact Int.natCast_nonneg _

variable {hash : uint256}

theorem markBlockAsReceived_eq_some {found : Bool}
    (h : markBlockAsReceived s hash now = some (found, s')) :
    (s.mapBlocksInFlight.find? hash = none ∧ s' = s) ∨
      ∃ nodeid it state entry, s.mapBlocksInFlight.find? hash = some (nodeid, it) ∧
        s.mapNodeState.find? nodeid = some state ∧
        state.vBlocksInFlight.deref it = some entry ∧
        s' = { s with
          nPeersWithValidatedDownloads :=
            if (state.receive it entry now).nBlocksInFlightValidHeaders = 0 ∧
                entry.fValidatedHeaders = true then
              s.nPeersWithValidatedDownloads - 1
            else s.nPeersWithValidatedDownloads
          mapNodeState := s.mapNodeState.assign nodeid (state.receive it entry now)
          mapBlocksInFlight := s.mapBlocksInFlight.erase hash } := by
  unfold markBlockAsReceived at h
  split at h
  · rename_i hnone
    cases h
    exact Or.inl ⟨hnone, rfl⟩
  · rename_i nodeid it hfind
    obtain ⟨state, hstate, h⟩ := Option.bind_eq_some_iff.1 h
    obtain ⟨entry, hentry, h⟩ := Option.bind_eq_some_iff.1 h
    cases h
    exact Or.inr ⟨nodeid, it, state, entry, hfind, hstate, hentry, rfl⟩

theorem Located.hash_eq (h : Located s)
    (hfind : s.mapBlocksInFlight.find? hash = some (nodeid, it))
    (hstate : s.mapNodeState.find? nodeid = some state)
    (hentry : state.vBlocksInFlight.deref it = some entry) : entry.hash = hash := by
  obtain ⟨blocks, hin, entry', hentry', rfl⟩ := (h hash nodeid it).1 hfind
  rw [blocksOf_of_find? hstate] at hin
  cases hin
  rw [hentry] at hentry'
  cases hentry'
  rfl

theorem Located.erase (h : Located s)
    (hfind : s.mapBlocksInFlight.find? hash = some (nodeid, it))
    (hstate : s.mapNodeState.find? nodeid = some state)
    (hentry : state.vBlocksInFlight.deref it = some entry)
    (hflight : s'.mapBlocksInFlight = s.mapBlocksInFlight.erase hash)
    (hmap : s'.mapNodeState = s.mapNodeState.assign nodeid state')
    (hblocks : state'.vBlocksInFlight = state.vBlocksInFlight.erase it) : Located s' := by
  have hlists := blocksOf_of_find? hstate
  have hhash := h.hash_eq hfind hstate hentry
  intro hash' nodeid' it'
  have hold := h hash' nodeid' it'
  rw [hflight, find?_erase, blocksOf_assign hmap, hblocks]
  by_cases hsame : hash' = hash
  · -- No other iterator points at a request of this block.
    subst hsame
    rw [if_pos rfl]
    refine iff_of_false (by simp) ?_
    rintro ⟨blocks, hin, entry', hentry', hhash'⟩
    by_cases hpeer : nodeid' = nodeid
    · subst hpeer
      rw [if_pos rfl] at hin
      cases hin
      rw [Option.mem_def, LinkedList.deref_erase] at hentry'
      split at hentry'
      · cases hentry'
      · rename_i hit
        have hother := hold.2 ⟨_, hlists, entry', hentry', hhash'⟩
        rw [hfind] at hother
        cases hother
        exact hit rfl
    · rw [if_neg hpeer] at hin
      have hother := hold.2 ⟨blocks, hin, entry', hentry', hhash'⟩
      rw [hfind] at hother
      cases hother
      exact hpeer rfl
  · rw [if_neg hsame, hold]
    by_cases hpeer : nodeid' = nodeid
    · subst hpeer
      rw [if_pos rfl, hlists]
      simp only [Option.mem_def, Option.some.injEq, exists_eq_left', LinkedList.deref_erase]
      have hit : ∀ entry', state.vBlocksInFlight.deref it' = some entry' → entry'.hash = hash' →
          it' ≠ it := by
        rintro entry' hentry' hhash' rfl
        rw [hentry] at hentry'
        cases hentry'
        exact hsame (hhash'.symm.trans hhash)
      constructor
      · rintro ⟨entry', hentry', hhash'⟩
        refine ⟨entry', ?_, hhash'⟩
        rw [if_neg (hit entry' hentry' hhash'), hentry']
      · rintro ⟨entry', hentry', hhash'⟩
        split at hentry'
        · cases hentry'
        · exact ⟨entry', hentry', hhash'⟩
    · rw [if_neg hpeer]

theorem toInt_decide (P : Prop) [Decidable P] : (decide P).toInt = if P then 1 else 0 := by
  by_cases h : P <;> simp [h]

theorem receive_downloads {n valid : ℤ} {fValidated : Bool} (h : 0 ≤ valid - fValidated.toInt) :
    (if valid - fValidated.toInt = 0 ∧ fValidated = true then n - 1 else n) +
      (decide (0 < valid)).toInt = n + (decide (0 < valid - fValidated.toInt)).toInt := by
  rw [toInt_decide, toInt_decide]
  cases fValidated with
  | false => simp
  | true =>
    simp only [Bool.toInt_true, and_true] at h ⊢
    split_ifs <;> omega

theorem request_downloads {n valid : ℤ} {fValidated : Bool} (h : 0 ≤ valid) :
    (if valid + fValidated.toInt = 1 ∧ fValidated = true then n + 1 else n) +
      (decide (0 < valid)).toInt = n + (decide (0 < valid + fValidated.toInt)).toInt := by
  rw [toInt_decide, toInt_decide]
  cases fValidated with
  | false => simp
  | true =>
    simp only [Bool.toInt_true, and_true]
    split_ifs <;> omega

theorem DownloadsTracked.received {found : Bool}
    (hs : DownloadsTracked s) (h : markBlockAsReceived s hash now = some (found, s')) :
    DownloadsTracked s' ∧ s'.mapBlocksInFlight.find? hash = none := by
  rcases markBlockAsReceived_eq_some h with ⟨hnone, rfl⟩ |
    ⟨nodeid, it, state, entry, hfind, hstate, hentry, rfl⟩
  · exact ⟨hs, hnone⟩
  have hcounted := hs.counted nodeid state hstate
  have hreceived : (state.receive it entry now).Counted := hcounted.receive hentry
  refine ⟨⟨?_, ?_, ?_, ?_, ?_, ?_⟩, find?_erase_self _ _⟩
  · exact hs.located.erase hfind hstate hentry rfl rfl rfl
  · intro nodeid' state'' hstate''
    rw [find?_assign] at hstate''
    split at hstate''
    · cases hstate''
      exact hreceived
    · exact hs.counted nodeid' state'' hstate''
  · exact @peersWith_change s _ nodeid state (state.receive it entry now) _ hstate rfl _ _
      hs.peers (receive_downloads hreceived.valid_nonneg)
  · exact @peersWith_change s _ nodeid state (state.receive it entry now) _ hstate rfl _ _
      hs.preferred rfl
  · exact @peersWith_change s _ nodeid state (state.receive it entry now) _ hstate rfl _ _
      hs.syncing rfl
  · exact @peersWith_change s _ nodeid state (state.receive it entry now) _ hstate rfl _ _
      hs.protect rfl

/-! ## A block that is requested -/

theorem CNodeState.Counted.request (h : state.Counted) :
    (state.request entry now).Counted := by
  have htotal := h.total
  have hvalid := h.valid
  constructor
  · show state.nBlocksInFlight + 1 = ((state.vBlocksInFlight.pushBack entry).values.length : ℤ)
    rw [LinkedList.values_pushBack, List.length_append, List.length_singleton]
    omega
  · show state.nBlocksInFlightValidHeaders + entry.fValidatedHeaders.toInt =
      ((state.vBlocksInFlight.pushBack entry).values.countP QueuedBlock.fValidatedHeaders : ℤ)
    rw [LinkedList.values_pushBack, List.countP_append, List.countP_singleton, hvalid]
    cases entry.fValidatedHeaders <;> simp

theorem Located.insert (h : Located s)
    (hfind : s.mapBlocksInFlight.find? entry.hash = none)
    (hstate : s.mapNodeState.find? nodeid = some state)
    (hflight : s'.mapBlocksInFlight =
      s.mapBlocksInFlight.emplace entry.hash (nodeid, state.vBlocksInFlight.next))
    (hmap : s'.mapNodeState = s.mapNodeState.assign nodeid state')
    (hblocks : state'.vBlocksInFlight = state.vBlocksInFlight.pushBack entry) : Located s' := by
  have hlists := blocksOf_of_find? hstate
  intro hash nodeid' it
  have hold := h hash nodeid' it
  rw [hflight, find?_emplace, blocksOf_assign hmap, hblocks, hfind, Option.getD_none]
  by_cases hpeer : nodeid' = nodeid
  · subst hpeer
    rw [if_pos rfl]
    simp only [Option.mem_def, Option.some.injEq, exists_eq_left', LinkedList.deref_pushBack]
    by_cases hit : it = state.vBlocksInFlight.next
    · -- The iterator of the new request.
      have hnew : state.vBlocksInFlight.deref it = none := by
        cases hderef : state.vBlocksInFlight.deref it with
        | none => rfl
        | some entry' =>
          have hlt := LinkedList.lt_next hderef
          omega
      have hunused : ∀ hash', s.mapBlocksInFlight.find? hash' ≠ some (nodeid', it) := by
        intro hash' hused
        obtain ⟨blocks, hin, entry', hentry', -⟩ := (h hash' nodeid' it).1 hused
        rw [hlists] at hin
        cases hin
        rw [Option.mem_def, hnew] at hentry'
        cases hentry'
      rw [if_pos hit]
      simp only [Option.some.injEq, exists_eq_left']
      by_cases hsame : hash = entry.hash
      · rw [if_pos hsame, hit]
        exact iff_of_true rfl hsame.symm
      · rw [if_neg hsame]
        exact iff_of_false (hunused hash) fun heq => hsame heq.symm
    · rw [if_neg hit]
      by_cases hsame : hash = entry.hash
      · rw [if_pos hsame]
        refine iff_of_false (fun heq => ?_) ?_
        · cases heq
          exact hit rfl
        · rintro ⟨entry', hentry', hhash'⟩
          have hother := hold.2 ⟨_, hlists, entry', hentry', hhash'⟩
          rw [hsame, hfind] at hother
          cases hother
      · rw [if_neg hsame, hold, hlists]
        simp only [Option.mem_def, Option.some.injEq, exists_eq_left']
  · rw [if_neg hpeer]
    by_cases hsame : hash = entry.hash
    · rw [if_pos hsame]
      refine iff_of_false (fun heq => ?_) fun hother => ?_
      · cases heq
        exact hpeer rfl
      · have hused := hold.2 hother
        rw [hsame, hfind] at hused
        cases hused
    · rw [if_neg hsame, hold]

variable {pindex : Option uint256} {pit : Bool}

theorem requestBlock_eq_some (h : requestBlock s nodeid hash pindex pit now = some (it, s')) :
    ∃ found t state, markBlockAsReceived s hash now = some (found, t) ∧
      t.mapNodeState.find? nodeid = some state ∧ it = state.vBlocksInFlight.next ∧
      s' =
        let state' := state.request ⟨hash, pindex, pindex.isSome, pit⟩ now
        { t with
          mapNodeState := t.mapNodeState.assign nodeid state'
          nPeersWithValidatedDownloads :=
            if state'.nBlocksInFlightValidHeaders = 1 ∧ pindex.isSome = true then
              t.nPeersWithValidatedDownloads + 1
            else t.nPeersWithValidatedDownloads
          mapBlocksInFlight := t.mapBlocksInFlight.emplace hash (nodeid, it) } := by
  unfold requestBlock at h
  obtain ⟨⟨found, t⟩, hreceived, h⟩ := Option.bind_eq_some_iff.1 h
  obtain ⟨state, hstate, h⟩ := Option.bind_eq_some_iff.1 h
  cases h
  exact ⟨found, t, state, hreceived, hstate, rfl, rfl⟩

theorem DownloadsTracked.requested (hs : DownloadsTracked s)
    (h : requestBlock s nodeid hash pindex pit now = some (it, s')) : DownloadsTracked s' := by
  obtain ⟨found, t, state, hreceived, hstate, rfl, rfl⟩ := requestBlock_eq_some h
  obtain ⟨ht, hfind⟩ := hs.received hreceived
  have hcounted := ht.counted nodeid state hstate
  let entry : QueuedBlock := ⟨hash, pindex, pindex.isSome, pit⟩
  refine ⟨?_, ?_, ?_, ?_, ?_, ?_⟩
  · exact @Located.insert t _ nodeid state (state.request entry now) entry ht.located hfind hstate
      rfl rfl rfl
  · intro nodeid' state'' hstate''
    rw [find?_assign] at hstate''
    split at hstate''
    · cases hstate''
      exact hcounted.request
    · exact ht.counted nodeid' state'' hstate''
  · exact @peersWith_change t _ nodeid state (state.request entry now) _ hstate rfl _ _
      ht.peers (request_downloads hcounted.valid_nonneg)
  · exact @peersWith_change t _ nodeid state (state.request entry now) _ hstate rfl _ _
      ht.preferred rfl
  · exact @peersWith_change t _ nodeid state (state.request entry now) _ hstate rfl _ _
      ht.syncing rfl
  · exact @peersWith_change t _ nodeid state (state.request entry now) _ hstate rfl _ _
      ht.protect rfl

theorem DownloadsTracked.marked {r : Bool × ℕ × NetState} (hs : DownloadsTracked s)
    (h : markBlockAsInFlight s nodeid hash pindex pit now = some r) : DownloadsTracked r.2.2 := by
  unfold markBlockAsInFlight at h
  obtain ⟨-, -, h⟩ := Option.bind_eq_some_iff.1 h
  have hrequest : ∀ {r : Bool × ℕ × NetState},
      (do return (true, ← requestBlock s nodeid hash pindex pit now)) = some r →
        DownloadsTracked r.2.2 := by
    intro r hr
    obtain ⟨⟨it, s'⟩, hrequest, hr⟩ := Option.bind_eq_some_iff.1 hr
    cases hr
    exact hs.requested hrequest
  split at h
  · split at h
    · cases h
      exact hs
    · exact hrequest h
  · exact hrequest h

theorem DownloadsTracked.initialized (hs : DownloadsTracked s) :
    DownloadsTracked (initializeNode s nodeid) := by
  unfold initializeNode StdMap.emplace
  cases hcount : s.mapNodeState.count nodeid with
  | true => exact hs
  | false =>
    have hnone := count_eq_false.1 hcount
    have hmap : ({ s with mapNodeState := s.mapNodeState.assign nodeid .new } :
      NetState).mapNodeState = s.mapNodeState.assign nodeid .new := rfl
    have hsum : ∀ p : CNodeState → Bool, p .new = false → s.peersWith p =
        ({ s with mapNodeState := s.mapNodeState.assign nodeid .new } : NetState).peersWith p := by
      intro p hp
      unfold NetState.peersWith
      rw [sum_assign_fresh _ hnone, hp]
      simp
    rw [if_neg Bool.false_ne_true]
    refine ⟨?_, ?_, hs.peers.trans (hsum _ rfl), hs.preferred.trans (hsum _ rfl),
      hs.syncing.trans (hsum _ rfl), hs.protect.trans (hsum _ rfl)⟩
    · intro hash nodeid' it
      rw [blocksOf_assign hmap]
      show s.mapBlocksInFlight.find? hash = _ ↔ _
      rw [hs.located hash nodeid' it]
      split
      · rename_i hpeer
        have hlist : s.blocksOf nodeid' = none := by
          unfold NetState.blocksOf
          rw [hpeer, hnone]
          rfl
        rw [hlist]
        refine iff_of_false ?_ ?_
        · rintro ⟨blocks, hin, -⟩
          cases hin
        · rintro ⟨blocks, hin, entry, hentry, -⟩
          cases hin
          cases hentry
      · rfl
    · intro nodeid' state hstate
      rw [hmap, find?_assign] at hstate
      split at hstate
      · cases hstate
        exact ⟨rfl, rfl⟩
      · exact hs.counted nodeid' state hstate

theorem DownloadsTracked.without (hs : DownloadsTracked s)
    (hstate : s.mapNodeState.find? nodeid = some state) :
    DownloadsTracked (s.without nodeid state) := by
  have hcounted := hs.counted nodeid state hstate
  have hlists := blocksOf_of_find? hstate
  have hmap : (s.without nodeid state).mapNodeState = s.mapNodeState.erase nodeid := rfl
  have hblocks : ∀ nodeid', (s.without nodeid state).blocksOf nodeid' =
      if nodeid' = nodeid then none else s.blocksOf nodeid' := by
    intro nodeid'
    unfold NetState.blocksOf
    rw [hmap, find?_erase]
    split <;> rfl
  refine ⟨?_, ?_, ?_, ?_, ?_, ?_⟩
  · intro hash nodeid' it
    have hflight : (s.without nodeid state).mapBlocksInFlight.find? hash =
      if hash ∈ state.vBlocksInFlight.values.map QueuedBlock.hash then none
      else s.mapBlocksInFlight.find? hash := Slots.find?_foldl_erase_keys _ _ _
    rw [hflight, hblocks]
    by_cases hmem : hash ∈ state.vBlocksInFlight.values.map QueuedBlock.hash
    · -- The block was in flight from the peer that goes, so from no other one.
      rw [if_pos hmem]
      obtain ⟨entry, hentry, rfl⟩ := List.mem_map.1 hmem
      obtain ⟨it', hderef⟩ := LinkedList.mem_values.1 hentry
      have hown := (hs.located entry.hash nodeid it').2 ⟨_, hlists, entry, hderef, rfl⟩
      refine iff_of_false (by simp) ?_
      rintro ⟨blocks, hin, entry', hentry', hhash'⟩
      split at hin
      · cases hin
      · rename_i hpeer
        have hother := (hs.located entry.hash nodeid' it).2 ⟨blocks, hin, entry', hentry', hhash'⟩
        rw [hown] at hother
        cases hother
        exact hpeer rfl
    · rw [if_neg hmem, hs.located hash nodeid' it]
      by_cases hpeer : nodeid' = nodeid
      · rw [if_pos hpeer, hpeer, hlists]
        refine iff_of_false ?_ ?_
        · rintro ⟨blocks, hin, entry, hentry, hhash⟩
          cases hin
          exact hmem (List.mem_map.2 ⟨entry, LinkedList.mem_values.2 ⟨it, hentry⟩, hhash⟩)
        · rintro ⟨blocks, hin, -⟩
          cases hin
      · rw [if_neg hpeer]
  · intro nodeid' state' hstate'
    rw [hmap, find?_erase] at hstate'
    split at hstate'
    · cases hstate'
    · exact hs.counted nodeid' state' hstate'
  · have hsum := peersWith_erase (p := fun state => decide (0 < state.nBlocksInFlightValidHeaders))
      hstate hmap
    have hold := hs.peers
    have hvalid : decide (state.nBlocksInFlightValidHeaders ≠ 0) =
        decide (0 < state.nBlocksInFlightValidHeaders) := by
      have hnonneg := hcounted.valid_nonneg
      exact decide_eq_decide.2 (by omega)
    show s.nPeersWithValidatedDownloads -
      (decide (state.nBlocksInFlightValidHeaders ≠ 0)).toInt = _
    rw [hvalid]
    omega
  · have hsum := peersWith_erase (p := CNodeState.fPreferredDownload) hstate hmap
    have hold := hs.preferred
    show s.nPreferredDownload - state.fPreferredDownload.toInt = _
    omega
  · have hsum := peersWith_erase (p := CNodeState.fSyncStarted) hstate hmap
    have hold := hs.syncing
    show s.nSyncStarted - state.fSyncStarted.toInt = _
    omega
  · have hsum := peersWith_erase (p := CNodeState.m_protect) hstate hmap
    have hold := hs.protect
    show s.g_outbound_peers_with_protect_from_disconnect - state.m_protect.toInt = _
    omega

/-- **After the last peer has gone** nothing is in flight and the counters are zero. -/
theorem DownloadsTracked.idle (hs : DownloadsTracked s) (hempty : s.mapNodeState.size = 0) :
    s.idle = true := by
  have hnone : ∀ nodeid, s.mapNodeState.find? nodeid = none := by
    intro nodeid
    rw [← count_eq_false, ← Bool.not_eq_true]
    intro hcount
    exact size_ne_zero.2 ⟨nodeid, hcount⟩ hempty
  have hsum : ∀ p, s.peersWith p = 0 := by
    intro p
    unfold NetState.peersWith StdMap.sum
    rw [List.eq_nil_of_length_eq_zero hempty]
    rfl
  have hflight : s.mapBlocksInFlight.size = 0 := by
    by_contra hsize
    obtain ⟨hash, hcount⟩ := size_ne_zero.1 hsize
    obtain ⟨⟨nodeid, it⟩, hfind⟩ := count_eq_true.1 hcount
    obtain ⟨blocks, hin, -⟩ := (hs.located hash nodeid it).1 hfind
    unfold NetState.blocksOf at hin
    rw [hnone] at hin
    cases hin
  unfold NetState.idle
  rw [decide_eq_true_eq, hs.preferred, hs.peers, hs.protect]
  exact ⟨hflight, hsum _, hsum _, hsum _⟩

theorem DownloadsTracked.finalized (hs : DownloadsTracked s)
    (hstate : s.mapNodeState.find? nodeid = some state) :
    finalizeNode s nodeid = some (decide (state.nMisbehavior = 0) && state.fCurrentlyConnected,
      s.without nodeid state) := by
  have hleft := hs.without hstate
  have hdownloads : (s.without nodeid state).nPeersWithValidatedDownloads ≥ 0 := by
    rw [hleft.peers]
    exact peersWith_nonneg
  have hprotect : (s.without nodeid state).g_outbound_peers_with_protect_from_disconnect ≥ 0 := by
    rw [hleft.protect]
    exact peersWith_nonneg
  simp only [finalizeNode, hstate, Option.bind_eq_bind, Option.bind_some, guard,
    if_pos hdownloads, if_pos hprotect, if_pos hleft.idle]
  rfl

/-! ## Every run -/

theorem DownloadsTracked.step {e : NetEvent} (hs : DownloadsTracked s)
    (h : downloads.step s e = some s') : DownloadsTracked s' := by
  cases e with
  | initializeNode nodeid =>
    cases h
    exact hs.initialized
  | finalizeNode nodeid =>
    obtain ⟨r, hr, rfl⟩ := Option.map_eq_some_iff.1 h
    obtain ⟨state, hstate, -⟩ := Option.bind_eq_some_iff.1 hr
    rw [hs.finalized hstate] at hr
    cases hr
    exact hs.without hstate
  | markBlockAsInFlight nodeid hash pindex pit now =>
    obtain ⟨r, hr, rfl⟩ := Option.map_eq_some_iff.1 h
    exact hs.marked hr
  | markBlockAsReceived hash now =>
    obtain ⟨r, hr, rfl⟩ := Option.map_eq_some_iff.1 h
    exact (hs.received hr).1
  | updatePreferredDownload nodeid fInbound fWhitelisted fOneShot fClient =>
    obtain ⟨state, hstate, h⟩ := Option.bind_eq_some_iff.1 h
    cases h
    refine hs.update hstate rfl rfl rfl rfl rfl rfl ?_ rfl rfl
    simp only
    omega
  | protectFromDisconnect nodeid =>
    obtain ⟨state, hstate, h⟩ := Option.bind_eq_some_iff.1 h
    split at h
    · rename_i hguard
      cases h
      refine hs.update hstate rfl rfl rfl rfl rfl rfl rfl rfl ?_
      rw [hguard.2]
      simp
    · cases h
      exact hs
  | setSyncStarted nodeid fSyncStarted =>
    obtain ⟨state, hstate, h⟩ := Option.bind_eq_some_iff.1 h
    split at h
    · cases h
      exact hs
    · rename_i hguard
      cases h
      refine hs.update hstate rfl rfl rfl rfl rfl rfl rfl ?_ rfl
      have hnew : fSyncStarted = !state.fSyncStarted := Bool.eq_not.2 (Ne.symm hguard)
      rw [hnew]
      cases state.fSyncStarted <;> simp

def NetEvent.peer? : NetEvent → Option NodeId
  | .initializeNode _ | .markBlockAsReceived _ _ => none
  | .finalizeNode nodeid | .markBlockAsInFlight nodeid _ _ _ _ |
    .updatePreferredDownload nodeid _ _ _ _ | .protectFromDisconnect nodeid |
    .setSyncStarted nodeid _ => some nodeid

theorem DownloadsTracked.isSome_received (hs : DownloadsTracked s) (hash : uint256) (now : ℤ) :
    (markBlockAsReceived s hash now).isSome = true := by
  unfold markBlockAsReceived
  split
  · rfl
  · rename_i nodeid it hfind
    obtain ⟨blocks, hin, entry, hentry, -⟩ := (hs.located hash nodeid it).1 hfind
    obtain ⟨state, hstate, rfl⟩ := Option.map_eq_some_iff.1 hin
    rw [Option.mem_def] at hentry
    simp only [hstate, hentry, bind, Option.bind, pure, Option.isSome_some]

theorem DownloadsTracked.isSome_request (hs : DownloadsTracked s)
    (hpeer : s.mapNodeState.count nodeid = true) :
    (requestBlock s nodeid hash pindex pit now).isSome = true := by
  obtain ⟨⟨found, t⟩, hreceived⟩ := Option.isSome_iff_exists.1 (hs.isSome_received hash now)
  have hpeer' : t.mapNodeState.count nodeid = true := by
    rcases markBlockAsReceived_eq_some hreceived with ⟨-, rfl⟩ |
      ⟨nodeid', it, state, entry, -, -, -, rfl⟩
    · exact hpeer
    · show (s.mapNodeState.assign nodeid' _).count nodeid = true
      rw [count_assign, hpeer, Bool.or_true]
  obtain ⟨state, hstate⟩ := count_eq_true.1 hpeer'
  unfold requestBlock
  simp only [hreceived, hstate, bind, Option.bind, pure, Option.isSome_some]

/-- **No assertion fails** but the one that the peer is known, and every iterator is valid. -/
theorem DownloadsTracked.isSome_step (hs : DownloadsTracked s) (e : NetEvent) :
    (downloads.step s e).isSome = true ↔
      ∀ nodeid ∈ e.peer?, s.mapNodeState.count nodeid = true := by
  have hknown : ∀ {α : Type} (nodeid : NodeId) (f : CNodeState → Option α),
      (∀ state, s.mapNodeState.find? nodeid = some state → (f state).isSome = true) →
        (((s.mapNodeState.find? nodeid).bind f).isSome = true ↔
          s.mapNodeState.count nodeid = true) := by
    intro α nodeid f hf
    unfold StdMap.count
    cases hstate : s.mapNodeState.find? nodeid with
    | none => simp
    | some state => simpa using hf state hstate
  cases e with
  | initializeNode nodeid => exact iff_of_true rfl (by simp [NetEvent.peer?])
  | markBlockAsReceived hash now =>
    refine iff_of_true ?_ (by simp [NetEvent.peer?])
    show ((markBlockAsReceived s hash now).map Prod.snd).isSome = true
    rw [Option.isSome_map]
    exact hs.isSome_received hash now
  | finalizeNode nodeid =>
    show ((finalizeNode s nodeid).map Prod.snd).isSome = true ↔ _
    simp only [NetEvent.peer?, Option.mem_def, Option.some.injEq, forall_eq', Option.isSome_map]
    refine hknown nodeid _ fun state hstate => ?_
    have hfinal := hs.finalized hstate
    unfold finalizeNode at hfinal
    rw [hstate] at hfinal
    exact Option.isSome_of_eq_some hfinal
  | markBlockAsInFlight nodeid hash pindex pit now =>
    show ((markBlockAsInFlight s nodeid hash pindex pit now).map fun r => r.2.2).isSome = true ↔ _
    simp only [NetEvent.peer?, Option.mem_def, Option.some.injEq, forall_eq', Option.isSome_map]
    refine hknown nodeid _ fun state hstate => ?_
    have hrequest : (do return (true, ← requestBlock s nodeid hash pindex pit now) :
        Option (Bool × ℕ × NetState)).isSome = true := by
      obtain ⟨r, hr⟩ := Option.isSome_iff_exists.1
        (@DownloadsTracked.isSome_request s nodeid now hash pindex pit hs
          (count_of_find? hstate))
      rw [hr]
      rfl
    split
    · split
      · rfl
      · exact hrequest
    · exact hrequest
  | updatePreferredDownload nodeid fInbound fWhitelisted fOneShot fClient =>
    simp only [NetEvent.peer?, Option.mem_def, Option.some.injEq, forall_eq']
    exact hknown nodeid _ fun state _ => rfl
  | protectFromDisconnect nodeid =>
    simp only [NetEvent.peer?, Option.mem_def, Option.some.injEq, forall_eq']
    refine hknown nodeid _ fun state _ => ?_
    split <;> rfl
  | setSyncStarted nodeid fSyncStarted =>
    simp only [NetEvent.peer?, Option.mem_def, Option.some.injEq, forall_eq']
    refine hknown nodeid _ fun state _ => ?_
    split <;> rfl

/-- What the map, the lists and the counters say of each other. -/
structure DownloadsExact (s : NetState) : Prop where
  /-- The map and the lists hold the same pairs of a peer and a block. -/
  same : ∀ nodeid hash, (∃ it, s.mapBlocksInFlight.find? hash = some (nodeid, it)) ↔
    ∃ state, s.mapNodeState.find? nodeid = some state ∧
      hash ∈ state.vBlocksInFlight.values.map QueuedBlock.hash
  /-- A block is in flight from one peer at most, -/
  one : ∀ nodeid state nodeid' state' hash, s.mapNodeState.find? nodeid = some state →
    s.mapNodeState.find? nodeid' = some state' →
    hash ∈ state.vBlocksInFlight.values.map QueuedBlock.hash →
    hash ∈ state'.vBlocksInFlight.values.map QueuedBlock.hash → nodeid = nodeid'
  once : ∀ nodeid state, s.mapNodeState.find? nodeid = some state →
    (state.vBlocksInFlight.values.map QueuedBlock.hash).Nodup
  total : ∀ nodeid state, s.mapNodeState.find? nodeid = some state →
    state.nBlocksInFlight = state.vBlocksInFlight.values.length
  valid : ∀ nodeid state, s.mapNodeState.find? nodeid = some state →
    state.nBlocksInFlightValidHeaders =
      state.vBlocksInFlight.values.countP QueuedBlock.fValidatedHeaders
  peers : s.nPeersWithValidatedDownloads =
    s.mapNodeState.entries.countP fun e => decide (0 < e.2.nBlocksInFlightValidHeaders)
  /-- What is asserted after the last `FinalizeNode`. -/
  idle : s.mapNodeState.size = 0 → s.idle = true

theorem peersWith_eq_countP : s.peersWith p = s.mapNodeState.entries.countP fun e => p e.2 := by
  unfold NetState.peersWith StdMap.sum
  induction s.mapNodeState.entries with
  | nil => rfl
  | cons e entries ih =>
    rw [List.map_cons, List.sum_cons, ih, List.countP_cons]
    cases hp : p e.2 <;> simp [hp, add_comm]

theorem DownloadsTracked.exact (hs : DownloadsTracked s) : DownloadsExact s := by
  have hin : ∀ {nodeid state hash}, s.mapNodeState.find? nodeid = some state →
      (hash ∈ state.vBlocksInFlight.values.map QueuedBlock.hash ↔
        ∃ it, s.mapBlocksInFlight.find? hash = some (nodeid, it)) := by
    intro nodeid state hash hstate
    have hlists := blocksOf_of_find? hstate
    rw [List.mem_map]
    constructor
    · rintro ⟨entry, hmem, hhash⟩
      obtain ⟨it, hentry⟩ := LinkedList.mem_values.1 hmem
      exact ⟨it, (hs.located hash nodeid it).2 ⟨_, hlists, entry, hentry, hhash⟩⟩
    · rintro ⟨it, hfind⟩
      obtain ⟨blocks, hblocks, entry, hentry, hhash⟩ := (hs.located hash nodeid it).1 hfind
      rw [hlists] at hblocks
      cases hblocks
      exact ⟨entry, LinkedList.mem_values.2 ⟨it, hentry⟩, hhash⟩
  refine ⟨fun nodeid hash => ?_, ?_, fun nodeid state hstate => ?_,
    fun nodeid state hstate => (hs.counted nodeid state hstate).total,
    fun nodeid state hstate => (hs.counted nodeid state hstate).valid, ?_, hs.idle⟩
  · constructor
    · rintro ⟨it, hfind⟩
      obtain ⟨blocks, hblocks, -⟩ := (hs.located hash nodeid it).1 hfind
      obtain ⟨state, hstate, -⟩ := Option.map_eq_some_iff.1 hblocks
      exact ⟨state, hstate, (hin hstate).2 ⟨it, hfind⟩⟩
    · rintro ⟨state, hstate, hmem⟩
      exact (hin hstate).1 hmem
  · intro nodeid state nodeid' state' hash hstate hstate' hmem hmem'
    obtain ⟨it, hfind⟩ := (hin hstate).1 hmem
    obtain ⟨it', hfind'⟩ := (hin hstate').1 hmem'
    rw [hfind] at hfind'
    cases hfind'
    rfl
  · -- Two requests of one block would be at the iterator of its hash.
    unfold LinkedList.values
    rw [List.map_map]
    refine state.vBlocksInFlight.nodup.of_map.map_on fun node hnode node' hnode' heq => ?_
    have hiter : ∀ node ∈ state.vBlocksInFlight.nodes,
        s.mapBlocksInFlight.find? node.2.hash = some (nodeid, node.1) := by
      intro node hnode
      refine (hs.located node.2.hash nodeid node.1).2 ⟨_, blocksOf_of_find? hstate, node.2, ?_, rfl⟩
      exact LinkedList.deref_eq_some.2 hnode
    have hfind := hiter node hnode
    have hsame : node.2.hash = node'.2.hash := heq
    rw [hsame, hiter node' hnode', Option.some.injEq, Prod.mk.injEq] at hfind
    exact List.inj_on_of_nodup_map state.vBlocksInFlight.nodup hnode hnode' hfind.2.symm
  · rw [hs.peers, peersWith_eq_countP]

/-- **Blocks in flight.**  After any run the map and the lists agree and the counters are exact; and
an operation stops only where it is called for a peer that is not known. -/
theorem blocksInFlight_exact {events : List NetEvent} (h : downloads.exec .start events = some s) :
    DownloadsExact s ∧ ∀ e, (downloads.step s e).isSome = true ↔
      ∀ nodeid ∈ e.peer?, s.mapNodeState.count nodeid = true := by
  have hs : DownloadsTracked s :=
    Machine.exec_invariant (fun _ _ _ hs _ hstep => hs.step hstep) .start
      (Machine.Along.of_forall (P := fun _ _ => True) fun _ _ _ => trivial) h
  exact ⟨hs.exact, hs.isSome_step⟩

/-- A block that is requested from a second peer, which then goes. -/
def rerequestRun : List NetEvent :=
  [.initializeNode 1, .initializeNode 2, .updatePreferredDownload 1 false false false false,
    .markBlockAsInFlight 1 10 none false 5, .markBlockAsInFlight 1 11 (some 11) false 6,
    .markBlockAsInFlight 2 11 (some 11) true 7, .markBlockAsReceived 10 8, .finalizeNode 2]

theorem rerequestRun_exact : ∃ s, downloads.exec .start rerequestRun = some s ∧
    DownloadsExact s ∧ ((downloads.step s (.finalizeNode 1)).isSome = true ↔
      ∀ nodeid ∈ (NetEvent.finalizeNode 1).peer?, s.mapNodeState.count nodeid = true) := by
  have hrun : (downloads.exec .start rerequestRun).isSome = true := by decide +kernel
  obtain ⟨s, hs⟩ := Option.isSome_iff_exists.1 hrun
  obtain ⟨hexact, hstep⟩ := blocksInFlight_exact hs
  exact ⟨s, hs, hexact, hstep _⟩

end UnemployCoin
