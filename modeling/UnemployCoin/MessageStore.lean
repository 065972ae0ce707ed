import UnemployCoin.Messages
import UnemployCoin.Lib.Run
/-!
# Calls of the message store

Any sequence of changes, lookups and flushes, beside what was written last.
-/

namespace UnemployCoin

structure MessageStore where
  messages : Messages
  channels : Channels
  seen : SeenAddresses

/-! ## Calls -/

inductive MessageCall where
  | AddMessage (message : CMessage)
  | RemoveMessage (out : MessagePoint)
  | OrphanMessage (message : CMessage)
  | OrphanMessageAt (out : MessagePoint)
  | GetMessage (out : MessagePoint)
  | FlushMessages
  | AddChannel (name : Bytes)
  | RemoveChannel (name : Bytes)
  | IsChannelSubscribed (name : Bytes)
  | AddAddressSeen (address : Bytes)
  | IsAddressSeen (address : Bytes)
  | FlushChannels

namespace MessageStore

def empty (messages channels seen : ℕ) : MessageStore where
  messages := ⟨∅, ∅, ∅, .ofSize messages, ∅⟩
  channels := ⟨∅, ∅, ∅, .ofSize channels, ∅⟩
  seen := ⟨∅, ∅, .ofSize seen, ∅⟩

/-- `AddAddressSeen`.  The set that loses the address is **the one for channels**. -/
def addAddressSeen (s : MessageStore) (address : Bytes) : MessageStore :=
  { s with
    channels.setSubscribedChannelsAskedForFalse :=
      s.channels.setSubscribedChannelsAskedForFalse.erase address
    seen.setDirtySeenAddressAdd := s.seen.setDirtySeenAddressAdd.emplace address () }

def flush (s : MessageStore) : MessageStore := ⟨s.messages.flush, s.channels.flush, s.seen.flush⟩

def perform (s : MessageStore) : MessageCall → MessageStore
  | .AddMessage message => { s with messages := s.messages.addMessage message }
  | .RemoveMessage out => { s with messages := s.messages.removeMessage out }
  | .OrphanMessage message => { s with messages := s.messages.orphanMessage message }
  | .OrphanMessageAt out => { s with messages := s.messages.orphanMessageAt out }
  | .GetMessage out => { s with messages := (s.messages.getMessage out).2 }
  | .FlushMessages => { s with messages := s.messages.flush }
  | .AddChannel name => { s with channels := s.channels.addChannel name }
  | .RemoveChannel name => { s with channels := s.channels.removeChannel name }
  | .IsChannelSubscribed name => { s with channels := (s.channels.isChannelSubscribed name).2 }
  | .AddAddressSeen address => s.addAddressSeen address
  | .IsAddressSeen address => { s with seen := (s.seen.isAddressSeen address).2 }
  | .FlushChannels => { s with channels := s.channels.flush, seen := s.seen.flush }

end MessageStore

structure LastWritten where
  message : MessagePoint → Option MessageData
  subscribed : Bytes → Bool
  addressSeen : Bytes → Bool

namespace LastWritten

def empty : LastWritten := ⟨fun _ => none, fun _ => false, fun _ => false⟩

def record (last : LastWritten) : MessageCall → LastWritten
  | .AddMessage message =>
    { last with message := Function.update last.message message.out (some message.data) }
  | .RemoveMessage out => { last with message := Function.update last.message out none }
  | .OrphanMessage message =>
    { last with message := Function.update last.message message.out (some message.data.orphaned) }
  | .OrphanMessageAt out =>
    { last with
      message := Function.update last.message out ((last.message out).map MessageData.orphaned) }
  | .AddChannel name => { last with subscribed := Function.update last.subscribed name true }
  | .RemoveChannel name => { last with subscribed := Function.update last.subscribed name false }
  | .AddAddressSeen address =>
    { last with addressSeen := Function.update last.addressSeen address true }
  | .GetMessage _ | .FlushMessages | .IsChannelSubscribed _ | .IsAddressSeen _ | .FlushChannels =>
    last

end LastWritten

/-- All lookups give what was written last. -/
structure MessageStore.Answers (s : MessageStore) (last : LastWritten) : Prop where
  message : ∀ out, (s.messages.getMessage out).1 = last.message out
  subscribed : ∀ name, (s.channels.isChannelSubscribed name).1 = last.subscribed name
  addressSeen : ∀ address, (s.seen.isAddressSeen address).1 = last.addressSeen address

def messageMachine : Machine (MessageStore × LastWritten) MessageCall where
  step := fun s call => some (s.1.perform call, s.2.record call)

def Messages.OrphanStored (s : Messages) (message : CMessage) : Prop :=
  s.setDirtyMessagesRemove.count message.out = false ∧
    s.pmessagedb.find? message.out = some message.data.orphaned

/-- **The calls that are not missed**: nothing else is pending or cached for the key. -/
def MessageStore.Lasts (s : MessageStore) : MessageCall → Prop
  | .AddMessage message =>
    (∀ data, s.messages.mapDirtyMessagesAdd.find? message.out = some data → data = message.data) ∧
    ∀ data, s.messages.pMessagesCache.find? message.out.toSerializedString = some data →
      data = message.data
  | .RemoveMessage out => s.messages.pMessagesCache.find? out.toSerializedString = none
  | .OrphanMessage message => s.messages.OrphanStored message
  | .OrphanMessageAt out => ∀ data, (s.messages.getMessage out).1 = some data →
      s.messages.OrphanStored ⟨out, data⟩
  | .RemoveChannel name => s.channels.pMessageSubscribedChannelsCache.exist name = false
  | .GetMessage _ | .FlushMessages | .AddChannel _ | .IsChannelSubscribed _ | .AddAddressSeen _
  | .IsAddressSeen _ | .FlushChannels => True

/-! ## Single calls -/

theorem written_addAddressSeen (s : MessageStore) (address : Bytes) :
    LookAside.Written s.seen.view (s.addAddressSeen address).seen.view address (some (some ()))
      (some ()) := by
  have hpending : ∀ k, (s.addAddressSeen address).seen.pending k =
      if k = address then some (some ()) else s.seen.pending k := by
    intro k
    simp only [SeenAddresses.pending, MessageStore.addAddressSeen]
    rw [StdMap.count_emplace]
    by_cases hk : k = address
    · rw [if_pos hk, decide_eq_true hk, Bool.true_or, cond_true]
    · rw [if_neg hk, decide_eq_false hk, Bool.false_or]
  exact ⟨hpending, hpending, rfl, fun k hk => hk, rfl⟩

theorem sound_addAddressSeen {s : MessageStore} {f : Bytes → Option Unit}
    (h : s.channels.view.Sound f) (address : Bytes) :
    (s.addAddressSeen address).channels.view.Sound f := by
  refine h.load rfl rfl rfl (fun k v hv => .inl hv) fun k hk => .inl ?_
  simp only [MessageStore.addAddressSeen, Channels.view] at hk
  rw [StdMap.count_erase, Bool.and_eq_true] at hk
  exact hk.2

namespace Messages

variable {s : Messages} {f : MessagePoint → Option MessageData}

theorem orphanStored_getMessage (s : Messages) (out : MessagePoint) (message : CMessage) :
    (s.getMessage out).2.OrphanStored message ↔ s.OrphanStored message := by
  obtain ⟨cache, hcache, -⟩ := s.getMessage_cache out
  rw [hcache]
  exact Iff.rfl

theorem addMessage_right (h : s.view.Sound f) (message : CMessage) :
    (s.addMessage message).view.RightWhen
      (Function.update f message.out (some message.data))
      ((∀ data, s.mapDirtyMessagesAdd.find? message.out = some data → data = message.data) ∧
        ∀ data, s.pMessagesCache.find? message.out.toSerializedString = some data →
          data = message.data) := by
  have hw : LookAside.Written s.view (s.addMessage message).view message.out _ _ :=
    written_addMessage
  by_cases hadd : ∀ data, s.mapDirtyMessagesAdd.find? message.out = some data →
      data = message.data
  · have hpending : (s.mapDirtyMessagesAdd.find? message.out).getD message.data =
        message.data := by
      cases hfind : s.mapDirtyMessagesAdd.find? message.out with
      | none => rfl
      | some data => exact hadd data hfind
    rw [hpending] at hw
    refine (hw.rightWhen h).congr ⟨fun hP => ⟨hadd, fun data hdata => ?_⟩, fun hQ => ⟨?_, rfl⟩⟩
    · exact (Option.some.inj (hP.1 data hdata)).symm
    · exact fun data hdata => congrArg some (hQ.2 data hdata).symm
  · refine ⟨⟨fun hright => absurd (fun data hdata => ?_) hadd, fun hP => absurd hP.1 hadd⟩,
      fun hP => absurd hP.1 hadd⟩
    have hnow := hright.now message.out
    rw [Function.update_self, LookAside.answer, hw.pending, if_pos rfl, Option.getD_some, hdata,
      Option.getD_some] at hnow
    exact Option.some.inj hnow

theorem removeMessage_right (h : s.view.Sound f) (out : MessagePoint) :
    (s.removeMessage out).view.RightWhen (Function.update f out none)
      (s.pMessagesCache.find? out.toSerializedString = none) := by
  refine (written_removeMessage.rightWhen h).congr ⟨fun hP => ?_, fun hnone => ⟨?_, rfl⟩⟩
  · exact Option.eq_none_iff_forall_ne_some.2 fun data hdata => by cases hP.1 data hdata
  · intro data hdata
    rw [view] at hdata
    dsimp only at hdata
    rw [hnone] at hdata
    cases hdata

/-- **An orphan is looked up only if it was one before.** -/
theorem orphanMessage_right (h : s.view.Sound f) (message : CMessage) :
    (s.orphanMessage message).view.RightWhen
      (Function.update f message.out (some message.data.orphaned)) (s.OrphanStored message) := by
  refine (written_orphanMessage.rightWhen h).congr ?_
  rw [OrphanStored]
  cases hremove : s.setDirtyMessagesRemove.count message.out with
  | true =>
    rw [cond_true, Option.getD_some]
    constructor
    · intro hP
      cases hP.2
    · intro hQ
      cases hQ.1
  | false =>
    rw [cond_false, Option.getD_none]
    refine ⟨fun hP => ⟨rfl, hP.2⟩, fun hQ => ⟨fun data hdata => ?_, hQ.2⟩⟩
    exact hQ.2.symm.trans (h.cached _ _ hdata).1

theorem orphanMessageAt_eq (s : Messages) (out : MessagePoint) :
    s.orphanMessageAt out = (s.getMessage out).1.elim (s.getMessage out).2 fun data =>
      (s.getMessage out).2.orphanMessage ⟨out, data⟩ := by
  rw [orphanMessageAt]
  obtain ⟨found, s'⟩ := s.getMessage out
  cases found <;> rfl

theorem orphanMessageAt_right (h : s.view.Sound f) (out : MessagePoint) :
    (s.orphanMessageAt out).view.RightWhen
      (Function.update f out ((f out).map MessageData.orphaned))
      (∀ data, (s.getMessage out).1 = some data → s.OrphanStored ⟨out, data⟩) := by
  have hload := sound_getMessage h out
  have hfound : (s.getMessage out).1 = f out := (getMessage_eq s out).trans (h.answer out)
  rw [orphanMessageAt_eq, hfound]
  cases hf : f out with
  | none =>
    rw [Option.map_none, ← hf, Function.update_eq_self, hf]
    refine hload.rightWhen.congr ⟨fun _ data hdata => ?_, fun _ => trivial⟩
    cases hdata
  | some data =>
    rw [Option.map_some, Option.elim_some]
    refine (orphanMessage_right hload ⟨out, data⟩).congr ?_
    rw [orphanStored_getMessage]
    exact ⟨fun hstored _ heq => Option.some.inj heq ▸ hstored, fun hall => hall data rfl⟩

end Messages

namespace Channels

variable {s : Channels} {g : Bytes → Bool}

theorem addChannel_right (h : s.view.Sound fun k => mark (g k)) (name : Bytes) :
    (s.addChannel name).view.RightWhen (fun k => mark (Function.update g name true k)) True := by
  rw [mark_update]
  refine (written_addChannel.rightWhen h).congr ⟨fun _ => trivial, fun _ => ⟨?_, rfl⟩⟩
  exact fun _ _ => rfl

theorem removeChannel_right (h : s.view.Sound fun k => mark (g k)) (name : Bytes) :
    (s.removeChannel name).view.RightWhen (fun k => mark (Function.update g name false k))
      (s.pMessageSubscribedChannelsCache.exist name = false) := by
  rw [mark_update]
  refine (written_removeChannel.rightWhen h).congr ⟨fun hP => ?_, fun hnone => ⟨?_, rfl⟩⟩
  · refine Option.isSome_eq_false_iff.2 (Option.isNone_iff_eq_none.2 ?_)
    exact Option.eq_none_iff_forall_ne_some.2 fun u hu => by cases hP.1 u hu
  · intro u hu
    rw [LruCache.exist, Option.isSome_eq_false_iff, Option.isNone_iff_eq_none] at hnone
    exact absurd (hnone.symm.trans hu) (Option.some_ne_none u).symm

end Channels

theorem addAddressSeen_right {s : MessageStore} {g : Bytes → Bool}
    (h : s.seen.view.Sound fun k => mark (g k)) (address : Bytes) :
    (s.addAddressSeen address).seen.view.RightWhen
      (fun k => mark (Function.update g address true k)) True := by
  rw [mark_update]
  refine ((written_addAddressSeen s address).rightWhen h).congr
    ⟨fun _ => trivial, fun _ => ⟨?_, rfl⟩⟩
  exact fun _ _ => rfl

/-! ## Runs -/

namespace MessageStore

/-- **All lookups are right**, and no flush changes an answer. -/
structure Right (s : MessageStore) (last : LastWritten) : Prop where
  now : s.Answers last
  flushed : s.flush.Answers last

/-- What carries the induction: the three views agree with what was written last. -/
structure Agrees (s : MessageStore) (last : LastWritten) : Prop where
  message : s.messages.view.Sound last.message
  subscribed : s.channels.view.Sound fun name => mark (last.subscribed name)
  addressSeen : s.seen.view.Sound fun address => mark (last.addressSeen address)

variable {s : MessageStore} {last : LastWritten}

theorem answers_iff : s.Answers last ↔
    (∀ out, s.messages.view.answer out = last.message out) ∧
    (∀ name, s.channels.view.answer name = mark (last.subscribed name)) ∧
    ∀ address, s.seen.view.answer address = mark (last.addressSeen address) := by
  simp only [eq_mark_iff, ← Messages.getMessage_eq, ← Channels.isChannelSubscribed_eq,
    ← SeenAddresses.isAddressSeen_eq]
  exact ⟨fun h => ⟨h.message, h.subscribed, h.addressSeen⟩, fun h => ⟨h.1, h.2.1, h.2.2⟩⟩

theorem right_iff : s.Right last ↔ s.messages.view.Right last.message ∧
    (s.channels.view.Right fun name => mark (last.subscribed name)) ∧
    s.seen.view.Right fun address => mark (last.addressSeen address) := by
  have hflush : s.flush.Answers last ↔
      (∀ out, s.messages.view.flush.answer out = last.message out) ∧
      (∀ name, s.channels.view.flush.answer name = mark (last.subscribed name)) ∧
      ∀ address, s.seen.view.flush.answer address = mark (last.addressSeen address) := by
    rw [answers_iff, flush, Messages.view_flush, Channels.view_flush, SeenAddresses.view_flush]
  constructor
  · rintro ⟨hnow, hflushed⟩
    have hn := answers_iff.1 hnow
    have hf := hflush.1 hflushed
    exact ⟨⟨hn.1, hf.1⟩, ⟨hn.2.1, hf.2.1⟩, ⟨hn.2.2, hf.2.2⟩⟩
  · rintro ⟨hm, hc, ha⟩
    exact ⟨answers_iff.2 ⟨hm.now, hc.now, ha.now⟩, hflush.2 ⟨hm.flushed, hc.flushed, ha.flushed⟩⟩

theorem empty_agrees (messages channels seen : ℕ) : (empty messages channels seen).Agrees .empty :=
  have hsound : ∀ {κ ν : Type} {L : LookAside κ ν}, (∀ k, L.pending k = none) →
      (∀ k, L.next k = none) → (∀ k, L.cached k = none) → (∀ k, L.stored k = none) →
      L.Sound fun _ => none := fun hpending hnext hcached hstored =>
    { seen := fun k => by rw [hpending, Option.getD_none, hstored]
      next := fun k => by rw [hnext, Option.getD_none, hstored]
      cached := fun k v hv => by
        rw [hcached] at hv
        cases hv
      absent := fun k _ => hstored k }
  { message := hsound (fun _ => rfl) (fun _ => rfl) (fun _ => rfl) fun _ => rfl
    subscribed := hsound (fun _ => rfl) (fun _ => rfl) (fun _ => rfl) fun _ => rfl
    addressSeen := hsound (fun _ => rfl) (fun _ => rfl) (fun _ => rfl) fun _ => rfl }

theorem Agrees.right (h : s.Agrees last) : s.Right last :=
  right_iff.2 ⟨h.message.right, h.subscribed.right, h.addressSeen.right⟩

theorem right_of_parts {P P₁ P₂ P₃ : Prop}
    (hm : s.messages.view.RightWhen last.message P₁)
    (hc : s.channels.view.RightWhen (fun name => mark (last.subscribed name)) P₂)
    (ha : s.seen.view.RightWhen (fun address => mark (last.addressSeen address)) P₃)
    (hP : P ↔ P₁ ∧ P₂ ∧ P₃) : (P ↔ s.Right last) ∧ (P → s.Agrees last) := by
  refine ⟨?_, fun h => ?_⟩
  · rw [hP, right_iff, hm.right_iff, hc.right_iff, ha.right_iff]
  · obtain ⟨h₁, h₂, h₃⟩ := hP.1 h
    exact ⟨hm.sound h₁, hc.sound h₂, ha.sound h₃⟩

/-- **One call**: it leaves the lookups right exactly when it is not missed. -/
theorem Agrees.perform (h : s.Agrees last) (call : MessageCall) :
    (s.Lasts call ↔ (s.perform call).Right (last.record call)) ∧
      (s.Lasts call → (s.perform call).Agrees (last.record call)) := by
  have hm := h.message.rightWhen
  have hc := h.subscribed.rightWhen
  have ha := h.addressSeen.rightWhen
  have hfirst : ∀ {P : Prop}, P ↔ P ∧ True ∧ True := fun {P} => by rw [and_true, and_true]
  have hsecond : ∀ {P : Prop}, P ↔ True ∧ P ∧ True := fun {P} => by rw [and_true, true_and]
  cases call with
  | AddMessage message =>
    exact right_of_parts (Messages.addMessage_right h.message message) hc ha hfirst
  | RemoveMessage out =>
    exact right_of_parts (Messages.removeMessage_right h.message out) hc ha hfirst
  | OrphanMessage message =>
    exact right_of_parts (Messages.orphanMessage_right h.message message) hc ha hfirst
  | OrphanMessageAt out =>
    exact right_of_parts (Messages.orphanMessageAt_right h.message out) hc ha hfirst
  | GetMessage out =>
    exact right_of_parts (Messages.sound_getMessage h.message out).rightWhen hc ha hfirst
  | FlushMessages =>
    have hflush := h.message.flush
    rw [← Messages.view_flush] at hflush
    exact right_of_parts hflush.rightWhen hc ha hfirst
  | AddChannel name =>
    exact right_of_parts hm (Channels.addChannel_right h.subscribed name) ha hsecond
  | RemoveChannel name =>
    exact right_of_parts hm (Channels.removeChannel_right h.subscribed name) ha hsecond
  | IsChannelSubscribed name =>
    exact right_of_parts hm (Channels.sound_isChannelSubscribed h.subscribed name).rightWhen ha
      hsecond
  | AddAddressSeen address =>
    exact right_of_parts hm (sound_addAddressSeen h.subscribed address).rightWhen
      (addAddressSeen_right h.addressSeen address) hfirst
  | IsAddressSeen address =>
    exact right_of_parts hm hc (SeenAddresses.sound_isAddressSeen h.addressSeen address).rightWhen
      hfirst
  | FlushChannels =>
    have hchannels := h.subscribed.flush
    have hseen := h.addressSeen.flush
    rw [← Channels.view_flush] at hchannels
    rw [← SeenAddresses.view_flush] at hseen
    exact right_of_parts hm hchannels.rightWhen hseen.rightWhen hfirst

end MessageStore

/-- The store after some calls on empty databases, and what they wrote last. -/
def afterCalls (messages channels seen : ℕ) (calls : List MessageCall) :
    MessageStore × LastWritten :=
  (calls.foldl MessageStore.perform (.empty messages channels seen),
    calls.foldl LastWritten.record .empty)

theorem exec_messageMachine (calls : List MessageCall) (s : MessageStore) (last : LastWritten) :
    messageMachine.exec (s, last) calls =
      some (calls.foldl MessageStore.perform s, calls.foldl LastWritten.record last) := by
  induction calls generalizing s last with
  | nil => rfl
  | cons call calls ih => exact ih _ _

/-- **The message store is right** after every one of some calls, with caches of any sizes, exactly
when each of the calls is one that is not missed. -/
theorem messageStore_correct_iff (messages channels seen : ℕ) (calls : List MessageCall) :
    (∀ pre post, calls = pre ++ post → (afterCalls messages channels seen pre).1.Right
      (afterCalls messages channels seen pre).2) ↔
    ∀ pre call post, calls = pre ++ call :: post →
      (afterCalls messages channels seen pre).1.Lasts call := by
  have hiff := Machine.shown_iff (M := messageMachine) (I := fun s => s.1.Agrees s.2)
    (J := fun s => s.1.Right s.2) (P := fun s call => s.1.Lasts call)
    (fun _ h => h.right)
    (fun s call s' h hs' => by
      cases hs'
      exact h.perform call)
    (MessageStore.empty_agrees messages channels seen) (exec_messageMachine calls _ _)
  rw [Machine.along_iff] at hiff
  constructor
  · intro hall pre call post hsplit
    refine hiff.1 (fun pre post s hsplit hs => ?_) pre call post _ hsplit
      (exec_messageMachine pre _ _)
    cases (exec_messageMachine pre _ _).symm.trans hs
    exact hall pre post hsplit
  · intro hlasts pre post hsplit
    refine hiff.2 (fun pre call post s hsplit hs => ?_) pre post _ hsplit
      (exec_messageMachine pre _ _)
    cases (exec_messageMachine pre _ _).symm.trans hs
    exact hlasts pre call post hsplit

def channelMessage : CMessage where
  out := ⟨⟨1, 0⟩, by decide⟩
  data := ⟨ascii "ABC!", [], 0, 0, .UNREAD, 1⟩

/-- **A message that is found after it was removed**: it was looked up before. -/
theorem removedMessage_found :
    let s := afterCalls 1000 1000 1000 [.AddMessage channelMessage, .FlushMessages,
      .GetMessage channelMessage.out, .RemoveMessage channelMessage.out, .FlushMessages]
    (s.1.messages.getMessage channelMessage.out).1 = some channelMessage.data ∧
      s.2.message channelMessage.out = none := by
  decide

end UnemployCoin
