import UnemployCoin.Transaction
import UnemployCoin.Serialization
import UnemployCoin.Lib.LookAside
import UnemployCoin.Lib.LruCache
/-!
# The message store

Messages, message channels and addresses that were seen (`assets/messages.cpp`), with the flushes
of their databases (`assets/myassetsdb.cpp`), on a node with messaging.  Every lookup goes through
pending changes, a cache and a database, and **no change and no flush looks at the cache**.

`Messages.view`, `Channels.view` and `SeenAddresses.view` read the three of them as a cache beside a
store with pending writes.
-/

namespace UnemployCoin

open StdMap

/-- The outpoints that there are: both fields have a fixed width. -/
abbrev MessagePoint := { out : COutPoint // out.hash < 2 ^ 256 ∧ out.n < 2 ^ 32 }

def MessagePoint.toSerializedString (out : MessagePoint) : Bytes :=
  writeLE 32 out.val.hash ++ writeLE 4 out.val.n

inductive MessageStatus where
  | READ
  | UNREAD
  | EXPIRED
  | SPAM
  | HIDDEN
  | ORPHAN
  | MSG_ERROR
  deriving DecidableEq

/-- A message but for its `out`, which is its key wherever a message is kept. -/
structure MessageData where
  strName : Bytes
  ipfsHash : Bytes
  time : Int64
  nExpiredTime : Int64
  status : MessageStatus
  nBlockHeight : Int32
  deriving DecidableEq

structure CMessage where
  out : MessagePoint
  data : MessageData

def MessageData.orphaned (data : MessageData) : MessageData := { data with status := .ORPHAN }

/-- The pending changes of messages, `pMessagesCache` and `pmessagedb`. -/
structure Messages where
  setDirtyMessagesRemove : StdMap MessagePoint Unit
  mapDirtyMessagesAdd : StdMap MessagePoint MessageData
  mapDirtyMessagesOrphaned : StdMap MessagePoint MessageData
  pMessagesCache : LruCache Bytes MessageData
  pmessagedb : StdMap MessagePoint MessageData

/-- The pending changes of channels, `pMessageSubscribedChannelsCache`, and the channels in
`pmessagechanneldb`. -/
structure Channels where
  setDirtyChannelsAdd : StdMap Bytes Unit
  setDirtyChannelsRemove : StdMap Bytes Unit
  setSubscribedChannelsAskedForFalse : StdMap Bytes Unit
  pMessageSubscribedChannelsCache : LruCache Bytes Unit
  pmessagechanneldb : StdMap Bytes Unit

structure SeenAddresses where
  setDirtySeenAddressAdd : StdMap Bytes Unit
  setAddressAskedForFalse : StdMap Bytes Unit
  pMessagesSeenAddressCache : LruCache Bytes Unit
  pmessagechanneldb : StdMap Bytes Unit

/-! ## Messages -/

namespace Messages

/-- `GetMessage`, with what it leaves in the cache. -/
def getMessage (s : Messages) (out : MessagePoint) : Option MessageData × Messages :=
  match s.mapDirtyMessagesAdd.find? out with
  | some message => (some message, s)
  | none =>
    if s.setDirtyMessagesRemove.count out then (none, s)
    else
      match s.pMessagesCache.find? out.toSerializedString with
      | some message =>
        (some message, { s with pMessagesCache := s.pMessagesCache.touch out.toSerializedString })
      | none =>
        match s.pmessagedb.find? out with
        | some message =>
          (some message,
            { s with pMessagesCache := s.pMessagesCache.put out.toSerializedString message })
        | none => (none, s)

def addMessage (s : Messages) (message : CMessage) : Messages :=
  { s with
    mapDirtyMessagesAdd := s.mapDirtyMessagesAdd.emplace message.out message.data
    setDirtyMessagesRemove := s.setDirtyMessagesRemove.erase message.out
    mapDirtyMessagesOrphaned := s.mapDirtyMessagesOrphaned.erase message.out }

def removeMessage (s : Messages) (out : MessagePoint) : Messages :=
  { s with
    setDirtyMessagesRemove := s.setDirtyMessagesRemove.emplace out ()
    mapDirtyMessagesAdd := s.mapDirtyMessagesAdd.erase out
    mapDirtyMessagesOrphaned := s.mapDirtyMessagesOrphaned.erase out }

/-- `OrphanMessage` of a message. -/
def orphanMessage (s : Messages) (message : CMessage) : Messages :=
  { s with
    mapDirtyMessagesOrphaned := s.mapDirtyMessagesOrphaned.assign message.out message.data
    mapDirtyMessagesAdd := s.mapDirtyMessagesAdd.erase message.out }

/-- `OrphanMessage` of an outpoint. -/
def orphanMessageAt (s : Messages) (out : MessagePoint) : Messages :=
  match s.getMessage out with
  | (some message, s) => s.orphanMessage ⟨out, message⟩
  | (none, s) => s

def flush (s : Messages) : Messages :=
  let removed := s.setDirtyMessagesRemove.entries.foldl (fun db e => db.erase e.1) s.pmessagedb
  let added := s.mapDirtyMessagesAdd.entries.foldl (fun db e => db.assign e.1 e.2) removed
  let orphans := s.mapDirtyMessagesAdd.entries.foldl (fun orphans e => orphans.erase e.1)
    s.mapDirtyMessagesOrphaned
  { s with
    pmessagedb := orphans.entries.foldl (fun db e => db.assign e.1 e.2.orphaned) added
    setDirtyMessagesRemove := ∅
    mapDirtyMessagesAdd := ∅
    mapDirtyMessagesOrphaned := ∅ }

/-- Messages as a cache beside a store.  **Orphans are written, but not looked up.** -/
def view (s : Messages) : LookAside MessagePoint MessageData where
  pending := fun out => (s.mapDirtyMessagesAdd.find? out).elim
    (bif s.setDirtyMessagesRemove.count out then some none else none) fun m => some (some m)
  next := fun out => (s.mapDirtyMessagesAdd.find? out).elim
    ((s.mapDirtyMessagesOrphaned.find? out).elim
      (bif s.setDirtyMessagesRemove.count out then some none else none)
      fun m => some (some m.orphaned)) fun m => some (some m)
  cached := fun out => s.pMessagesCache.find? out.toSerializedString
  absent := fun _ => false
  stored := s.pmessagedb.find?

end Messages

/-! ## Channels and addresses -/

namespace Channels

def isChannelSubscribed (s : Channels) (name : Bytes) : Bool × Channels :=
  if s.setDirtyChannelsAdd.count name then (true, s)
  else if s.setDirtyChannelsRemove.count name then (false, s)
  else if s.pMessageSubscribedChannelsCache.exist name then (true, s)
  else if s.setSubscribedChannelsAskedForFalse.count name then (false, s)
  else if s.pmessagechanneldb.count name then
    (true,
      { s with pMessageSubscribedChannelsCache := s.pMessageSubscribedChannelsCache.put name () })
  else
    (false,
      { s with setSubscribedChannelsAskedForFalse :=
          s.setSubscribedChannelsAskedForFalse.emplace name () })

def addChannel (s : Channels) (name : Bytes) : Channels :=
  { s with
    setDirtyChannelsAdd := s.setDirtyChannelsAdd.emplace name ()
    setDirtyChannelsRemove := s.setDirtyChannelsRemove.erase name
    setSubscribedChannelsAskedForFalse := s.setSubscribedChannelsAskedForFalse.erase name }

def removeChannel (s : Channels) (name : Bytes) : Channels :=
  { s with
    setDirtyChannelsRemove := s.setDirtyChannelsRemove.emplace name ()
    setDirtyChannelsAdd := s.setDirtyChannelsAdd.erase name }

/-- The part of `CMessageChannelDB::Flush` for channels. -/
def flush (s : Channels) : Channels :=
  let removed := s.setDirtyChannelsRemove.entries.foldl (fun db e => db.erase e.1)
    s.pmessagechanneldb
  { s with
    pmessagechanneldb := s.setDirtyChannelsAdd.entries.foldl (fun db e => db.assign e.1 e.2) removed
    setDirtyChannelsRemove := ∅
    setDirtyChannelsAdd := ∅
    setSubscribedChannelsAskedForFalse := ∅ }

def pending (s : Channels) (name : Bytes) : Option (Option Unit) :=
  bif s.setDirtyChannelsAdd.count name then some (some ())
  else bif s.setDirtyChannelsRemove.count name then some none else none

def view (s : Channels) : LookAside Bytes Unit where
  pending := s.pending
  next := s.pending
  cached := s.pMessageSubscribedChannelsCache.find?
  absent := s.setSubscribedChannelsAskedForFalse.count
  stored := s.pmessagechanneldb.find?

end Channels

namespace SeenAddresses

def isAddressSeen (s : SeenAddresses) (address : Bytes) : Bool × SeenAddresses :=
  if s.setDirtySeenAddressAdd.count address then (true, s)
  else if s.pMessagesSeenAddressCache.exist address then (true, s)
  else if s.setAddressAskedForFalse.count address then (false, s)
  else if s.pmessagechanneldb.count address then
    (true, { s with pMessagesSeenAddressCache := s.pMessagesSeenAddressCache.put address () })
  else (false, { s with setAddressAskedForFalse := s.setAddressAskedForFalse.emplace address () })

/-- The part of `CMessageChannelDB::Flush` for addresses. -/
def flush (s : SeenAddresses) : SeenAddresses :=
  { s with
    pmessagechanneldb := s.setDirtySeenAddressAdd.entries.foldl (fun db e => db.assign e.1 e.2)
      s.pmessagechanneldb
    setDirtySeenAddressAdd := ∅
    setAddressAskedForFalse := ∅ }

def pending (s : SeenAddresses) (address : Bytes) : Option (Option Unit) :=
  bif s.setDirtySeenAddressAdd.count address then some (some ()) else none

def view (s : SeenAddresses) : LookAside Bytes Unit where
  pending := s.pending
  next := s.pending
  cached := s.pMessagesSeenAddressCache.find?
  absent := s.setAddressAskedForFalse.count
  stored := s.pmessagechanneldb.find?

end SeenAddresses

/-! ## Lookups and flushes of messages -/

theorem toSerializedString_injective :
    Function.Injective MessagePoint.toSerializedString := by
  intro out out' h
  obtain ⟨⟨hash, n⟩, hhash, hn⟩ := out
  obtain ⟨⟨hash', n'⟩, hhash', hn'⟩ := out'
  obtain ⟨h₁, h₂⟩ := List.append_inj h (by rw [length_writeLE, length_writeLE])
  have heq := congrArg readLE h₁
  have heq' := congrArg readLE h₂
  rw [readLE_writeLE_of_lt hhash, readLE_writeLE_of_lt hhash'] at heq
  rw [readLE_writeLE_of_lt hn, readLE_writeLE_of_lt hn'] at heq'
  exact Subtype.ext (congrArg₂ COutPoint.mk heq heq')

namespace Messages

variable {s : Messages} {f : MessagePoint → Option MessageData} {out : MessagePoint}
  {message : CMessage}

theorem getMessage_eq (s : Messages) (out : MessagePoint) :
    (s.getMessage out).1 = s.view.answer out := by
  rw [getMessage, LookAside.answer, view]
  dsimp only
  cases s.mapDirtyMessagesAdd.find? out with
  | some m => rfl
  | none =>
    cases s.setDirtyMessagesRemove.count out with
    | true => rfl
    | false =>
      cases s.pMessagesCache.find? out.toSerializedString with
      | some m => rfl
      | none => cases s.pmessagedb.find? out <;> rfl

/-- **A lookup changes nothing but the cache**, which gets what the database has. -/
theorem getMessage_cache (s : Messages) (out : MessagePoint) :
    ∃ cache, (s.getMessage out).2 = { s with pMessagesCache := cache } ∧
      ∀ k data, cache.find? k = some data → s.pMessagesCache.find? k = some data ∨
        k = out.toSerializedString ∧ s.view.pending out = none ∧
          s.pmessagedb.find? out = some data := by
  rw [getMessage]
  cases hadd : s.mapDirtyMessagesAdd.find? out with
  | some m => exact ⟨_, rfl, fun _ _ h => .inl h⟩
  | none =>
    cases hremove : s.setDirtyMessagesRemove.count out with
    | true => exact ⟨_, rfl, fun _ _ h => .inl h⟩
    | false =>
      have hpending : s.view.pending out = none := by
        rw [view]
        dsimp only
        rw [hadd, hremove]
        rfl
      cases s.pMessagesCache.find? out.toSerializedString with
      | some m =>
        refine ⟨_, rfl, fun k data h => .inl ?_⟩
        rwa [LruCache.find?_touch] at h
      | none =>
        cases hdb : s.pmessagedb.find? out with
        | none => exact ⟨_, rfl, fun _ _ h => .inl h⟩
        | some m =>
          refine ⟨_, rfl, fun k data h => ?_⟩
          rcases LruCache.find?_put h with ⟨hk, rfl⟩ | ⟨-, hold⟩
          · exact .inr ⟨hk, hpending, rfl⟩
          · exact .inl hold

theorem sound_getMessage (h : s.view.Sound f) (out : MessagePoint) :
    (s.getMessage out).2.view.Sound f := by
  obtain ⟨cache, hcache, hfind⟩ := s.getMessage_cache out
  rw [hcache]
  refine h.load rfl rfl rfl (fun k data hdata => ?_) (fun k hk => .inl hk)
  rcases hfind _ _ hdata with hold | ⟨hk, hpending, hstored⟩
  · exact .inl hold
  · rw [toSerializedString_injective hk]
    exact .inr ⟨hpending, hstored⟩

theorem written_addMessage : LookAside.Written s.view (s.addMessage message).view message.out
    (some (some ((s.mapDirtyMessagesAdd.find? message.out).getD message.data)))
    (some ((s.mapDirtyMessagesAdd.find? message.out).getD message.data)) where
  pending := fun out => by
    simp only [view, addMessage]
    rw [find?_emplace]
    by_cases hout : out = message.out
    · rw [if_pos hout, if_pos hout, Option.elim_some]
    · rw [if_neg hout, if_neg hout, count_erase, decide_eq_false hout, Bool.not_false,
        Bool.true_and]
  next := fun out => by
    simp only [view, addMessage]
    rw [find?_emplace]
    by_cases hout : out = message.out
    · rw [if_pos hout, if_pos hout, Option.elim_some]
    · rw [if_neg hout, if_neg hout, find?_erase_ne hout, count_erase,
        decide_eq_false hout, Bool.not_false, Bool.true_and]
  cached := rfl
  absent := fun _ h => h
  stored := rfl

theorem written_removeMessage :
    LookAside.Written s.view (s.removeMessage out).view out (some none) none where
  pending := fun out' => by
    simp only [view, removeMessage, find?_erase, count_emplace]
    by_cases hout : out' = out <;> simp [hout]
  next := fun out' => by
    simp only [view, removeMessage, find?_erase, count_emplace]
    by_cases hout : out' = out <;> simp [hout]
  cached := rfl
  absent := fun _ h => h
  stored := rfl

theorem written_orphanMessage :
    LookAside.Written s.view (s.orphanMessage message).view message.out
      (bif s.setDirtyMessagesRemove.count message.out then some none else none)
      (some message.data.orphaned) where
  pending := fun out => by
    simp only [view, orphanMessage, find?_erase]
    by_cases hout : out = message.out <;> simp [hout]
  next := fun out => by
    simp only [view, orphanMessage, find?_erase, find?_assign]
    by_cases hout : out = message.out <;> simp [hout]
  cached := rfl
  absent := fun _ h => h
  stored := rfl

/-- **The flush of messages** is the flush of the layers. -/
theorem view_flush (s : Messages) : s.flush.view = s.view.flush := by
  have hstored : s.flush.pmessagedb.find? = s.view.flush.stored := by
    funext out
    let removed := s.setDirtyMessagesRemove.entries.foldl (fun db e => db.erase e.1) s.pmessagedb
    let orphans := s.mapDirtyMessagesAdd.entries.foldl (fun orphans e => orphans.erase e.1)
      s.mapDirtyMessagesOrphaned
    have horphans : orphans.find? out =
        if s.mapDirtyMessagesAdd.count out then none
        else s.mapDirtyMessagesOrphaned.find? out := by
      rw [find?_foldl_erase, entries_find?_isSome]
    have hremoved : removed.find? out =
        if s.setDirtyMessagesRemove.count out then none else s.pmessagedb.find? out := by
      rw [find?_foldl_erase, entries_find?_isSome]
    have hwritten : (orphans.entries.foldl (fun db e => StdMap.put true db e.1 e.2.orphaned)
        (removed.update s.mapDirtyMessagesAdd)).find? out =
          StdMap.merge true ((orphans.find? out).map MessageData.orphaned)
            ((removed.update s.mapDirtyMessagesAdd).find? out) :=
      find?_foldl_put_entries orphans MessageData.orphaned _ out
    rw [find?_update, horphans, hremoved] at hwritten
    refine hwritten.trans ?_
    rw [StdMap.merge, if_pos rfl, LookAside.flush, view]
    dsimp only
    rw [StdMap.count]
    cases s.mapDirtyMessagesAdd.find? out with
    | some m => rfl
    | none =>
      cases s.mapDirtyMessagesOrphaned.find? out with
      | some m => rfl
      | none => cases s.setDirtyMessagesRemove.count out <;> rfl
  have hview : s.flush.view = ⟨fun _ => none, fun _ => none, s.view.cached, fun _ => false,
      s.flush.pmessagedb.find?⟩ := rfl
  rw [hview, hstored]
  rfl

end Messages

/-! ## Lookups and flushes of channels and addresses -/

def mark (present : Bool) : Option Unit := bif present then some () else none

theorem mark_isSome (o : Option Unit) : mark o.isSome = o := by cases o <;> rfl

theorem isSome_mark (present : Bool) : (mark present).isSome = present := by cases present <;> rfl

theorem mark_update {κ : Type} [DecidableEq κ] (g : κ → Bool) (k : κ) (present : Bool) :
    (fun k' => mark (Function.update g k present k')) =
      Function.update (fun k' => mark (g k')) k (mark present) := by
  funext k'
  rw [Function.update_apply, Function.update_apply, apply_ite mark]

theorem eq_mark_iff {o : Option Unit} {present : Bool} : o = mark present ↔ o.isSome = present := by
  rw [← mark_isSome o, isSome_mark]
  exact ⟨fun h => by rw [← isSome_mark o.isSome, h, isSome_mark], congrArg mark⟩

namespace Channels

variable {s : Channels} {f : Bytes → Option Unit} {name : Bytes}

theorem isChannelSubscribed_eq (s : Channels) (name : Bytes) :
    (s.isChannelSubscribed name).1 = (s.view.answer name).isSome := by
  rw [isChannelSubscribed, LookAside.answer, view]
  dsimp only
  rw [pending]
  cases s.setDirtyChannelsAdd.count name with
  | true => rfl
  | false =>
    cases s.setDirtyChannelsRemove.count name with
    | true => rfl
    | false =>
      rw [LruCache.exist]
      cases s.pMessageSubscribedChannelsCache.find? name with
      | some u => rfl
      | none =>
        cases s.setSubscribedChannelsAskedForFalse.count name with
        | true => rfl
        | false =>
          rw [StdMap.count]
          cases s.pmessagechanneldb.find? name <;> rfl

theorem pending_eq_none (hadd : s.setDirtyChannelsAdd.count name = false)
    (hremove : s.setDirtyChannelsRemove.count name = false) : s.pending name = none := by
  rw [pending, hadd, hremove]
  rfl

theorem sound_isChannelSubscribed (h : s.view.Sound f) (name : Bytes) :
    (s.isChannelSubscribed name).2.view.Sound f := by
  rw [isChannelSubscribed]
  split_ifs with hadd hremove hcache hasked hdb
  · exact h
  · exact h
  · exact h
  · exact h
  · have hpending := pending_eq_none (Bool.eq_false_iff.2 hadd) (Bool.eq_false_iff.2 hremove)
    refine h.load rfl rfl rfl (fun k v hv => ?_) fun k hk => .inl hk
    rcases LruCache.find?_put hv with ⟨rfl, rfl⟩ | ⟨-, hold⟩
    · exact .inr ⟨hpending, Option.isSome_iff_exists.1 hdb |>.choose_spec⟩
    · exact .inl hold
  · refine h.load rfl rfl rfl (fun k v hv => .inl hv) fun k hk => ?_
    simp only [view] at hk
    rw [count_emplace, Bool.or_eq_true, decide_eq_true_iff] at hk
    rcases hk with rfl | hk
    · exact .inr (count_eq_false.1 (Bool.eq_false_iff.2 hdb))
    · exact .inl hk

theorem written_addChannel :
    LookAside.Written s.view (s.addChannel name).view name (some (some ())) (some ()) := by
  have hpending : ∀ k, (s.addChannel name).pending k =
      if k = name then some (some ()) else s.pending k := by
    intro k
    simp only [pending, addChannel]
    rw [count_emplace, count_erase]
    by_cases hk : k = name
    · rw [if_pos hk, decide_eq_true hk, Bool.true_or, cond_true]
    · rw [if_neg hk, decide_eq_false hk, Bool.false_or, Bool.not_false, Bool.true_and]
  refine ⟨hpending, hpending, rfl, fun k hk => ?_, rfl⟩
  simp only [view, addChannel] at hk
  rw [count_erase, Bool.and_eq_true] at hk
  exact hk.2

theorem written_removeChannel :
    LookAside.Written s.view (s.removeChannel name).view name (some none) none := by
  have hpending : ∀ k, (s.removeChannel name).pending k =
      if k = name then some none else s.pending k := by
    intro k
    simp only [pending, removeChannel]
    rw [count_emplace, count_erase]
    by_cases hk : k = name
    · rw [if_pos hk, decide_eq_true hk, Bool.not_true, Bool.false_and, cond_false, Bool.true_or,
        cond_true]
    · rw [if_neg hk, decide_eq_false hk, Bool.false_or, Bool.not_false, Bool.true_and]
  exact ⟨hpending, hpending, rfl, fun k hk => hk, rfl⟩

theorem view_flush (s : Channels) : s.flush.view = s.view.flush := by
  have hstored : s.flush.pmessagechanneldb.find? = s.view.flush.stored := by
    funext name
    have hremoved : (s.setDirtyChannelsRemove.entries.foldl (fun db e => db.erase e.1)
        s.pmessagechanneldb).find? name =
          if s.setDirtyChannelsRemove.count name then none
          else s.pmessagechanneldb.find? name := by
      rw [find?_foldl_erase, entries_find?_isSome]
    have hadded := find?_update (s.setDirtyChannelsRemove.entries.foldl
      (fun db e => db.erase e.1) s.pmessagechanneldb) s.setDirtyChannelsAdd name
    rw [hremoved] at hadded
    refine hadded.trans ?_
    rw [LookAside.flush, view]
    dsimp only
    have hadd : s.setDirtyChannelsAdd.count name = (s.setDirtyChannelsAdd.find? name).isSome := rfl
    rw [pending, hadd]
    cases s.setDirtyChannelsAdd.find? name with
    | some u => rfl
    | none => cases s.setDirtyChannelsRemove.count name <;> rfl
  have hview : s.flush.view = ⟨fun _ => none, fun _ => none, s.view.cached, fun _ => false,
      s.flush.pmessagechanneldb.find?⟩ := rfl
  rw [hview, hstored]
  rfl

end Channels

namespace SeenAddresses

variable {s : SeenAddresses} {f : Bytes → Option Unit} {address : Bytes}

theorem isAddressSeen_eq (s : SeenAddresses) (address : Bytes) :
    (s.isAddressSeen address).1 = (s.view.answer address).isSome := by
  rw [isAddressSeen, LookAside.answer, view]
  dsimp only
  rw [pending]
  cases s.setDirtySeenAddressAdd.count address with
  | true => rfl
  | false =>
    rw [LruCache.exist]
    cases s.pMessagesSeenAddressCache.find? address with
    | some u => rfl
    | none =>
      cases s.setAddressAskedForFalse.count address with
      | true => rfl
      | false =>
        rw [StdMap.count]
        cases s.pmessagechanneldb.find? address <;> rfl

theorem sound_isAddressSeen (h : s.view.Sound f) (address : Bytes) :
    (s.isAddressSeen address).2.view.Sound f := by
  rw [isAddressSeen]
  split_ifs with hadd hcache hasked hdb
  · exact h
  · exact h
  · exact h
  · have hpending : s.pending address = none := by
      rw [pending, Bool.eq_false_iff.2 hadd]
      rfl
    refine h.load rfl rfl rfl (fun k v hv => ?_) fun k hk => .inl hk
    rcases LruCache.find?_put hv with ⟨rfl, rfl⟩ | ⟨-, hold⟩
    · exact .inr ⟨hpending, Option.isSome_iff_exists.1 hdb |>.choose_spec⟩
    · exact .inl hold
  · refine h.load rfl rfl rfl (fun k v hv => .inl hv) fun k hk => ?_
    simp only [view] at hk
    rw [count_emplace, Bool.or_eq_true, decide_eq_true_iff] at hk
    rcases hk with rfl | hk
    · exact .inr (count_eq_false.1 (Bool.eq_false_iff.2 hdb))
    · exact .inl hk

theorem view_flush (s : SeenAddresses) : s.flush.view = s.view.flush := by
  have hstored : s.flush.pmessagechanneldb.find? = s.view.flush.stored := by
    funext address
    refine (find?_update s.pmessagechanneldb s.setDirtySeenAddressAdd address).trans ?_
    rw [LookAside.flush, view]
    dsimp only
    rw [pending, StdMap.count]
    cases s.setDirtySeenAddressAdd.find? address <;> rfl
  have hview : s.flush.view = ⟨fun _ => none, fun _ => none, s.view.cached, fun _ => false,
      s.flush.pmessagechanneldb.find?⟩ := rfl
  rw [hview, hstored]
  rfl

end SeenAddresses

end UnemployCoin
