import UnemployCoin.BlockCommands
import UnemployCoin.Lib.Toggles
/-!
# Tags on addresses

The commands of the blocks of a chain put tags on addresses and take them off.  A tag is a
qualifier `#TAG` or a sub qualifier `#TAG/#SUB` of one, and an address with a sub qualifier carries
the qualifier too.
-/

namespace UnemployCoin

open Check CAssetsCache Toggles StdMap

variable {env : Env} {st : AssetState} {cache cache' : CAssetsCache}

/-! ## Names of tags -/

theorem split_ne_nil (s : Bytes) (c : UInt8) : s.split c ≠ [] := by
  cases s with
  | nil => exact List.cons_ne_nil _ _
  | cons b s =>
    rw [Bytes.split, List.foldr_cons, ← Bytes.split]
    split
    · exact List.cons_ne_nil _ _
    · split <;> exact List.cons_ne_nil _ _

theorem split_cons {s : Bytes} {b c : UInt8} {p : Bytes} {ps : List Bytes}
    (h : Bytes.split (b :: s) c = p :: ps) :
    (b = c ∧ p = [] ∧ s.split c = ps) ∨ (b ≠ c ∧ ∃ q, p = b :: q ∧ s.split c = q :: ps) := by
  rw [Bytes.split, List.foldr_cons, ← Bytes.split] at h
  split at h
  · rename_i hb
    obtain ⟨rfl, hps⟩ := List.cons.inj h
    exact Or.inl ⟨beq_iff_eq.1 hb, rfl, hps⟩
  · rename_i hb
    refine Or.inr ⟨fun heq => hb (beq_iff_eq.2 heq), ?_⟩
    split at h
    · rename_i q qs hsplit
      obtain ⟨rfl, rfl⟩ := List.cons.inj h
      exact ⟨q, rfl, hsplit⟩
    · rename_i hsplit
      exact absurd hsplit (split_ne_nil s c)

theorem split_eq_singleton {s p : Bytes} {c : UInt8} (h : s.split c = [p]) : s = p ∧ c ∉ s := by
  induction s generalizing p with
  | nil =>
    cases h
    exact ⟨rfl, List.not_mem_nil⟩
  | cons b s ih =>
    rcases split_cons h with ⟨-, -, hnil⟩ | ⟨hne, q, rfl, hq⟩
    · exact absurd hnil (split_ne_nil s c)
    · obtain ⟨rfl, hnot⟩ := ih hq
      exact ⟨rfl, List.not_mem_cons_of_ne_of_not_mem hne.symm hnot⟩

theorem split_eq_pair {s p q : Bytes} {c : UInt8} (h : s.split c = [p, q]) :
    s = p ++ c :: q ∧ c ∉ p ∧ c ∉ q := by
  induction s generalizing p with
  | nil => cases h
  | cons b s ih =>
    rcases split_cons h with ⟨rfl, rfl, hq⟩ | ⟨hne, p, rfl, hp⟩
    · obtain ⟨rfl, hnot⟩ := split_eq_singleton hq
      exact ⟨rfl, List.not_mem_nil, hnot⟩
    · obtain ⟨rfl, hnot, hq⟩ := ih hp
      exact ⟨rfl, List.not_mem_cons_of_ne_of_not_mem hne.symm hnot, hq⟩

theorem findLast_append {p q : Bytes} {c : UInt8} (h : c ∉ q) :
    Bytes.findLast (p ++ c :: q) c = some p.length := by
  have hindex : (p ++ c :: q).reverse.findIdx? (fun b => b == c) = some q.length := by
    rw [List.reverse_append, List.reverse_cons, List.append_assoc, List.singleton_append,
      List.findIdx?_append]
    have hnone : q.reverse.findIdx? (fun b => b == c) = none := by
      rw [List.findIdx?_eq_none_iff]
      intro b hb
      rw [beq_eq_false_iff_ne]
      rintro rfl
      exact h (List.mem_reverse.1 hb)
    rw [hnone, List.findIdx?_cons, beq_self_eq_true, if_pos rfl]
    simp
  rw [Bytes.findLast, hindex]
  simp

def TagName (name : Bytes) : Prop :=
  assetTypeOf name = .QUALIFIER ∨ assetTypeOf name = .SUB_QUALIFIER

/-- `x` is a sub qualifier of `q`: what `CheckForAddressRootQualifier` looks for. -/
def IsSubTag (x q : Bytes) : Prop := q ++ [SUB_NAME_DELIMITER] <+: x

theorem tagName_valid {name : Bytes} (h : TagName name) :
    ∃ type, isAssetNameValid name = some type ∧ (type = .QUALIFIER ∨ type = .SUB_QUALIFIER) ∧
      indicatedType name = type ∧ isQualifierNameValidBeforeTag name = true := by
  have hof : ∀ type, assetTypeOf name = type → type = .QUALIFIER ∨ type = .SUB_QUALIFIER →
      isAssetNameValid name = some type ∧ indicatedType name = type ∧
        isQualifierNameValidBeforeTag name = true := by
    intro type htype hor
    have hvalid : isAssetNameValid name = some type :=
      isAssetNameValid_of_assetTypeOf htype (by rcases hor with rfl | rfl <;> decide)
    have hindicated := indicatedType_of_valid hvalid
    refine ⟨hvalid, hindicated, ?_⟩
    have hcheck := hvalid
    rw [isAssetNameValid] at hcheck
    split at hcheck
    · cases hcheck
    · simp only at hcheck
      split at hcheck
      · rename_i htypecheck
        rw [hindicated] at htypecheck
        rcases hor with rfl | rfl
        · exact (Bool.and_eq_true_iff.1 htypecheck).2
        · exact (Bool.and_eq_true_iff.1 htypecheck).2
      · cases hcheck
  rcases h with h | h
  · obtain ⟨hvalid, hindicated, hname⟩ := hof _ h (Or.inl rfl)
    exact ⟨_, hvalid, Or.inl rfl, hindicated, hname⟩
  · obtain ⟨hvalid, hindicated, hname⟩ := hof _ h (Or.inr rfl)
    exact ⟨_, hvalid, Or.inr rfl, hindicated, hname⟩

theorem not_qualifier_of_sub {name : Bytes} (hsub : isAssetNameASubQualifier name = true) :
    indicatedType name ≠ .QUALIFIER := by
  rw [indicatedType, if_pos hsub]
  repeat' split
  all_goals decide

/-- **Sub qualifiers.**  Those of `q` are the ones whose parent is `q`. -/
theorem isSubTag_iff {name q : Bytes} (h : TagName name) :
    IsSubTag name q ↔ isAssetNameASubQualifier name = true ∧ getParentName name = q := by
  obtain ⟨type, hvalid, htype, hindicated, hname⟩ := tagName_valid h
  rw [isQualifierNameValidBeforeTag] at hname
  split at hname
  · rename_i hnil
    exact absurd hnil (split_ne_nil _ _)
  · rename_i front parts hsplit
    rw [Bool.and_eq_true_iff, Bool.and_eq_true_iff, decide_eq_true_eq] at hname
    obtain ⟨⟨hfront, hlen⟩, -⟩ := hname
    cases parts with
    | nil =>
      obtain ⟨-, hnot⟩ := split_eq_singleton hsplit
      refine iff_of_false (fun hsub => ?_) fun hsub => ?_
      · exact hnot (hsub.subset (List.mem_append_right _ List.mem_cons_self))
      · have hfalse := hsub.1
        rw [isAssetNameASubQualifier, hsplit] at hfalse
        simp at hfalse
    | cons part parts =>
      have hnil : parts = [] := List.length_eq_zero_iff.1 (by simpa using hlen)
      subst hnil
      obtain ⟨rfl, hnotfront, hnotpart⟩ := split_eq_pair hsplit
      have hsub : isAssetNameASubQualifier (front ++ SUB_NAME_DELIMITER :: part) = true := by
        rw [isAssetNameASubQualifier, hsplit]
        simp [hfront]
      have hsubtype : type = .SUB_QUALIFIER :=
        htype.resolve_left fun heq => not_qualifier_of_sub hsub (hindicated.trans heq)
      have hparent : getParentName (front ++ SUB_NAME_DELIMITER :: part) = front := by
        rw [getParentName, hvalid, hsubtype]
        simp only [parentDelimiter, Option.bind_some]
        rw [findLast_append hnotpart]
        simp only [Bytes.substr, List.drop_zero, List.take_left']
      rw [hparent]
      refine Iff.trans ?_ (and_iff_right hsub).symm
      constructor
      · rintro ⟨rest, hrest⟩
        rw [List.append_assoc, List.singleton_append] at hrest
        exact ((List.append_cons_inj_of_notMem hnotfront hnotpart).1 hrest.symm).1
      · rintro rfl
        exact ⟨part, by rw [List.append_assoc, List.singleton_append]⟩

/-! ## The tags of a chain -/

def tagCommand : NullCommand → Option ((Bytes × Bytes) × QualifierType)
  | .qualifier assetName address type => some ((assetName, address), type)
  | _ => none

def tagCoding (env : Env) : Coding (Bytes × Bytes) Bytes (Bytes × Bytes) QualifierType where
  on := .ADD_QUALIFIER
  off := .REMOVE_QUALIFIER
  on_ne_off := by decide
  cacheKey key := cacheHash env key.1 key.2
  dbKey := Prod.swap
  dbKey_injective := Prod.swap_injective

def tagsOf (env : Env) (txs : List CTransaction) : List ((Bytes × Bytes) × QualifierType) :=
  (commandsOf env txs).filterMap tagCommand

/-- The tags on addresses after the blocks of a chain, tip first. -/
def taggedAddresses (env : Env) : List CBlock → Set (Bytes × Bytes)
  | [] => ∅
  | block :: chain => applyTo (tagCoding env) (taggedAddresses env chain) (tagsOf env block.vtx)

theorem taggedAddresses_eq (chain : List CBlock) :
    taggedAddresses env chain =
      applyTo (tagCoding env) ∅ (chain.reverse.flatMap fun block => tagsOf env block.vtx) := by
  induction chain with
  | nil => rfl
  | cons block chain ih =>
    rw [taggedAddresses, ih, List.reverse_cons, List.flatMap_append, List.flatMap_singleton,
      applyTo_append]

/-- An address carries a tag: it has the tag, or a **sub qualifier** of it. -/
def CarriesTag (tagged : Set (Bytes × Bytes)) (q address : Bytes) : Prop :=
  (q, address) ∈ tagged ∨ ∃ x, IsSubTag x q ∧ (x, address) ∈ tagged

theorem tagName_of_tagsOf {txs : List CTransaction} {e : (Bytes × Bytes) × QualifierType}
    (he : e ∈ tagsOf env txs) : TagName e.1.1 := by
  obtain ⟨command, hcommand, hread⟩ := List.mem_filterMap.1 he
  obtain ⟨tx, -, hnull⟩ := List.mem_flatMap.1 hcommand
  obtain ⟨out, -, hout⟩ := List.mem_filterMap.1 hnull
  rw [nullCommand] at hout
  split at hout
  · simp only at hout
    split at hout
    · cases hout
      cases hread
    · rename_i htype
      cases hout
      cases hread
      exact Or.inl htype
    · rename_i htype
      cases hout
      cases hread
      exact Or.inr htype
    · cases hout
  · split at hout
    · cases hout
      cases hread
    · cases hout

theorem mem_tagsOf_reverse {txs : List CTransaction} {e : (Bytes × Bytes) × QualifierType} :
    e ∈ tagsOf env txs.reverse ↔ e ∈ tagsOf env txs := by
  simp only [tagsOf, List.mem_filterMap, mem_commandsOf_reverse]

theorem tagsOf_eq_nil {txs : List CTransaction} (h : commandsOf env txs = []) :
    tagsOf env txs = [] := by
  rw [tagsOf, h, List.filterMap_nil]

/-! ## The root qualifier maps -/

/-- The sub qualifiers that a root qualifier map has for a qualifier and an address. -/
def subTags (m : StdMap (Bytes × Bytes) (StdMap Bytes Unit)) (key : Bytes × Bytes) : Set Bytes :=
  {x | ((m.find? key).getD ∅).count x = true}

variable {m top bottom into from_ : StdMap (Bytes × Bytes) (StdMap Bytes Unit)}
  {key : Bytes × Bytes} {x : Bytes}

theorem subTags_empty : subTags ∅ key = ∅ := by
  rw [subTags, find?_empty, Option.getD_none]
  simp only [count_empty, Bool.false_eq_true, Set.ofPred_false]

theorem subTags_assign (names : StdMap Bytes Unit) (key' : Bytes × Bytes) :
    subTags (m.assign key names) key' =
      if key' = key then {x | names.count x = true} else subTags m key' := by
  rw [subTags, find?_assign]
  split
  · rfl
  · rfl

theorem hasSubQualifier_iff : hasSubQualifier m key = true ↔ (subTags m key).Nonempty := by
  rw [hasSubQualifier, Set.Nonempty]
  simp only [subTags, Set.mem_ofPred_eq]
  cases m.find? key with
  | none => simp
  | some names => rw [decide_eq_true_eq, size_ne_zero, Option.getD_some]

theorem mem_subTags_emplaces (names : List Bytes) (key key' : Bytes × Bytes)
    (m : StdMap (Bytes × Bytes) (StdMap Bytes Unit)) :
    x ∈ subTags (names.foldl (fun m asset =>
      m.assign key (((m.find? key).getD ∅).emplace asset ())) m) key' ↔
        (key' = key ∧ x ∈ names) ∨ x ∈ subTags m key' := by
  induction names generalizing m with
  | nil => simp
  | cons name names ih =>
    rw [List.foldl_cons, ih, subTags_assign]
    by_cases hkey : key' = key
    · subst hkey
      rw [if_pos rfl, Set.mem_ofPred_eq, count_emplace, Bool.or_eq_true, decide_eq_true_eq,
        List.mem_cons, subTags, Set.mem_ofPred_eq]
      simp only [true_and]
      rw [or_left_comm, or_assoc]
    · rw [if_neg hkey]
      simp only [hkey, false_and]

theorem subTags_merge :
    subTags (mergeRootQualifiers top bottom) key = subTags top key ∪ subTags bottom key := by
  have hfold : ∀ (l : List ((Bytes × Bytes) × StdMap Bytes Unit))
      (m : StdMap (Bytes × Bytes) (StdMap Bytes Unit)) (x : Bytes),
      x ∈ subTags (l.foldl (fun m item => item.2.keys.foldl (fun m asset =>
        m.assign item.1 (((m.find? item.1).getD ∅).emplace asset ())) m) m) key ↔
          (∃ item ∈ l, item.1 = key ∧ item.2.count x = true) ∨ x ∈ subTags m key := by
    intro l
    induction l with
    | nil => simp
    | cons item l ih =>
      intro m x
      rw [List.foldl_cons, ih, mem_subTags_emplaces, mem_keys, eq_comm (a := key)]
      simp only [List.mem_cons, exists_eq_or_imp]
      rw [or_left_comm, or_assoc]
  ext x
  rw [mergeRootQualifiers, hfold, Set.mem_union]
  refine or_congr_left ?_
  rw [subTags, Set.mem_ofPred_eq]
  constructor
  · rintro ⟨⟨key', names⟩, hmem, rfl, hcount⟩
    rw [mem_entries.1 hmem]
    exact hcount
  · intro hcount
    cases hfind : top.find? key with
    | none =>
      rw [hfind, Option.getD_none, count_empty] at hcount
      cases hcount
    | some names =>
      rw [hfind, Option.getD_some] at hcount
      exact ⟨(key, names), mem_entries.2 hfind, rfl, hcount⟩

theorem subTags_move (name address : Bytes) :
    x ∈ subTags (moveRootQualifier into from_ name address).1 key ∨
        x ∈ subTags (moveRootQualifier into from_ name address).2 key ↔
      (key = (getParentName name, address) ∧ x = name) ∨
        x ∈ subTags into key ∨ x ∈ subTags from_ key := by
  simp only [moveRootQualifier]
  rw [subTags_assign, subTags_assign]
  by_cases hkey : key = (getParentName name, address)
  · subst hkey
    rw [if_pos rfl, if_pos rfl, Set.mem_ofPred_eq, Set.mem_ofPred_eq, count_emplace,
      count_erase, subTags, subTags, Set.mem_ofPred_eq, Set.mem_ofPred_eq]
    by_cases hx : x = name <;> simp [hx]
  · rw [if_neg hkey, if_neg hkey]
    simp only [hkey, false_and, false_or]

/-- The sub qualifiers that a local cache has touched: they are in one of its two maps. -/
def CAssetsCache.touched (cache : CAssetsCache) (key : Bytes × Bytes) : Set Bytes :=
  subTags cache.mapRootQualifierAddressesAdd key ∪
    subTags cache.mapRootQualifierAddressesRemove key

theorem subTags_flushInto (cache P : CAssetsCache) (key : Bytes × Bytes) :
    subTags (cache.flushInto P).mapRootQualifierAddressesAdd key =
      cache.touched key ∪ subTags P.mapRootQualifierAddressesAdd key := by
  simp only [flushInto, subTags_merge]
  rw [← Set.union_assoc, Set.union_comm (subTags _ key), CAssetsCache.touched]

def Touches (key : Bytes × Bytes) (x : Bytes) (e : (Bytes × Bytes) × QualifierType) : Prop :=
  e.1 = (x, key.2) ∧ isAssetNameASubQualifier x = true ∧ getParentName x = key.1

theorem mem_touched_update (name address : Bytes) (fAdd : Bool) :
    x ∈ (cache.updateRootQualifiers name address fAdd).touched key ↔
      ((name, address) = (x, key.2) ∧ isAssetNameASubQualifier x = true ∧
        getParentName x = key.1) ∨ x ∈ cache.touched key := by
  have hmove : ∀ {into from_ : StdMap (Bytes × Bytes) (StdMap Bytes Unit)},
      isAssetNameASubQualifier name = true →
      ((x ∈ subTags (moveRootQualifier into from_ name address).1 key ∨
        x ∈ subTags (moveRootQualifier into from_ name address).2 key) ↔
      ((name, address) = (x, key.2) ∧ isAssetNameASubQualifier x = true ∧
        getParentName x = key.1) ∨ x ∈ subTags into key ∨ x ∈ subTags from_ key) := by
    intro into from_ hsub
    rw [subTags_move]
    refine or_congr_left ⟨?_, ?_⟩
    · rintro ⟨rfl, rfl⟩
      exact ⟨rfl, hsub, rfl⟩
    · rintro ⟨heq, -, hparent⟩
      obtain ⟨rfl, rfl⟩ := Prod.mk.inj heq
      exact ⟨Prod.ext hparent.symm rfl, rfl⟩
  rw [updateRootQualifiers]
  split
  · rename_i hsub
    split
    · simp only [touched, Set.mem_union]
      exact hmove hsub
    · simp only [touched, Set.mem_union]
      rw [or_comm, hmove hsub]
      rw [or_comm (a := x ∈ subTags cache.mapRootQualifierAddressesRemove key)]
  · rename_i hnot
    rw [or_iff_right]
    rintro ⟨heq, hsub, -⟩
    rw [(Prod.mk.inj heq).1] at hnot
    exact hnot hsub

/-! ## Commands in the local cache -/

theorem addCommand_newQualifierAddress (cache : CAssetsCache) (command : NullCommand) :
    (cache.addCommand command).newQualifierAddress =
      (tagCommand command).elim cache.newQualifierAddress fun e =>
        cache.newQualifierAddress.add true e.1 e.2 := by
  cases command <;> rfl

theorem removeCommand_newQualifierAddress (cache : CAssetsCache) (command : NullCommand) :
    (cache.removeCommand command).newQualifierAddress =
      (tagCommand command).elim cache.newQualifierAddress fun e =>
        cache.newQualifierAddress.remove true e.1 e.2 := by
  cases command <;> rfl

theorem mem_touched_addCommand (cache : CAssetsCache) (command : NullCommand) :
    x ∈ (cache.addCommand command).touched key ↔
      (∃ e ∈ tagCommand command, Touches key x e) ∨ x ∈ cache.touched key := by
  cases command with
  | qualifier name address type =>
    refine (mem_touched_update name address _).trans (or_congr_left ?_)
    simp only [tagCommand, Option.mem_def, Option.some.injEq, exists_eq_left', Touches]
  | restricted => simp [tagCommand, addCommand, addRestrictedAddress, touched]
  | global => simp [tagCommand, addCommand, addGlobalRestricted, touched]

theorem mem_touched_removeCommand (cache : CAssetsCache) (command : NullCommand) :
    x ∈ (cache.removeCommand command).touched key ↔
      (∃ e ∈ tagCommand command, Touches key x e) ∨ x ∈ cache.touched key := by
  cases command with
  | qualifier name address type =>
    refine (mem_touched_update name address _).trans (or_congr_left ?_)
    simp only [tagCommand, Option.mem_def, Option.some.injEq, exists_eq_left', Touches]
  | restricted => simp [tagCommand, removeCommand, removeRestrictedAddress, touched]
  | global => simp [tagCommand, removeCommand, removeGlobalRestricted, touched]

theorem mem_touched_foldl {f : CAssetsCache → NullCommand → CAssetsCache}
    (hf : ∀ (c : CAssetsCache) (command : NullCommand), x ∈ (f c command).touched key ↔
      (∃ e ∈ tagCommand command, Touches key x e) ∨ x ∈ c.touched key)
    (commands : List NullCommand) :
    x ∈ (commands.foldl f cache).touched key ↔
      (∃ e ∈ commands.filterMap tagCommand, Touches key x e) ∨ x ∈ cache.touched key := by
  induction commands generalizing cache with
  | nil => simp
  | cons command commands ih =>
    rw [List.foldl_cons, ih, hf, or_left_comm, ← or_assoc]
    refine or_congr_left ?_
    cases hread : tagCommand command with
    | none =>
      rw [List.filterMap_cons_none hread]
      simp
    | some e =>
      rw [List.filterMap_cons_some hread]
      simp only [Option.mem_def, Option.some.injEq, exists_eq_left', List.mem_cons,
        exists_eq_or_imp]

theorem mem_touched_empty : x ∉ CAssetsCache.empty.touched key := by
  have hempty : CAssetsCache.empty.touched key = subTags ∅ key ∪ subTags ∅ key := rfl
  rw [hempty, subTags_empty, Set.union_empty]
  exact Set.notMem_empty x

theorem exists_touches_iff {txs : List CTransaction} :
    (∃ e ∈ tagsOf env txs, Touches key x e) ↔
      (x, key.2) ∈ (tagsOf env txs).map Prod.fst ∧ IsSubTag x key.1 := by
  rw [List.mem_map]
  constructor
  · rintro ⟨e, he, heq, hsub⟩
    have hname := tagName_of_tagsOf he
    rw [heq] at hname
    exact ⟨⟨e, he, heq⟩, (isSubTag_iff hname).2 hsub⟩
  · rintro ⟨⟨e, he, heq⟩, hsub⟩
    have hname := tagName_of_tagsOf he
    rw [heq] at hname
    exact ⟨e, he, heq, (isSubTag_iff hname).1 hsub⟩

theorem touched_of_commandPart (h : cache.commandPart = cache'.commandPart) :
    cache.touched key = cache'.touched key := by
  have hadd : cache.mapRootQualifierAddressesAdd = cache'.mapRootQualifierAddressesAdd :=
    congrArg (fun part => part.2.2.2.1) h
  have hremove : cache.mapRootQualifierAddressesRemove = cache'.mapRootQualifierAddressesRemove :=
    congrArg (fun part => part.2.2.2.2) h
  rw [touched, hadd, hremove, ← touched]

/-- **Connecting a block.**  Its tags are staged in the local cache. -/
theorem connectBlock_tags {view : CCoinsView} {ctx : BlockContext} {block : CBlock}
    {s : ConnectState} (hgenesis : block.hash ≠ env.params.hashGenesisBlock)
    (hcoinbase : CoinbaseWithoutCommands env block)
    (h : connectBlock env st ctx block view .empty = .ok s) :
    s.assetsCache.newQualifierAddress = stageAll (tagsOf env block.vtx) ∧
      ∀ key x, x ∈ s.assetsCache.touched key ↔
        (x, key.2) ∈ (tagsOf env block.vtx).map Prod.fst ∧ IsSubTag x key.1 := by
  have hpart := connectBlock_commandPart hgenesis hcoinbase h
  constructor
  · have hstaged : s.assetsCache.newQualifierAddress =
        ((commandsOf env block.vtx).foldl addCommand .empty).newQualifierAddress :=
      congrArg Prod.fst hpart
    have hnone : CAssetsCache.empty.newQualifierAddress =
        stageAll (([] : List NullCommand).filterMap tagCommand) := rfl
    rw [hstaged]
    exact foldl_stage addCommand_newQualifierAddress hnone _
  · intro key x
    rw [touched_of_commandPart hpart, mem_touched_foldl mem_touched_addCommand,
      or_iff_left mem_touched_empty]
    exact exists_touches_iff

/-- **Disconnecting a block.**  Its tags are undone in the local cache. -/
theorem disconnectBlock_tags {nHeight : ℕ} {block : CBlock} {vtxundo : List CTxUndo}
    {vUndoData : List (Bytes × CBlockAssetUndo)} {view : CCoinsView} {s : DisconnectState}
    (hdep : commandsOf env block.vtx ≠ [] →
      env.dep.areAssetsDeployed = true ∧ env.dep.areRestrictedAssetsDeployed = true)
    (h : disconnectBlock env st nHeight block vtxundo vUndoData view .empty = .ok s) :
    s.assetsCache.newQualifierAddress = stageRemovals (tagsOf env block.vtx.reverse) ∧
      ∀ key x, x ∈ s.assetsCache.touched key ↔
        (x, key.2) ∈ (tagsOf env block.vtx.reverse).map Prod.fst ∧ IsSubTag x key.1 := by
  have hpart := disconnectBlock_commandPart hdep h
  constructor
  · have hstaged : s.assetsCache.newQualifierAddress =
        ((commandsOf env block.vtx.reverse).foldl removeCommand .empty).newQualifierAddress :=
      congrArg Prod.fst hpart
    have hnone : CAssetsCache.empty.newQualifierAddress =
        stageRemovals (([] : List NullCommand).filterMap tagCommand) := rfl
    rw [hstaged]
    exact foldl_stageRemoval removeCommand_newQualifierAddress hnone _
  · intro key x
    rw [touched_of_commandPart hpart, mem_touched_foldl mem_touched_removeCommand,
      or_iff_left mem_touched_empty]
    exact exists_touches_iff

theorem tagChange_of_checked {name address : Bytes} {type : QualifierType} (hname : TagName name)
    (h : CommandChecked env st (.qualifier name address type)) :
    ∃ cache : CAssetsCache, (type = .ADD_QUALIFIER ∨ type = .REMOVE_QUALIFIER) ∧
      (type = .ADD_QUALIFIER ↔
        cache.checkForAddressQualifier env st name address true = false) := by
  obtain ⟨-, cache, out, hread, hcheck⟩ := h
  refine ⟨cache, ?_⟩
  rw [checkNullAssetOutput, require_bind] at hcheck
  obtain ⟨-, hcheck⟩ := hcheck
  rw [nullCommand] at hread
  split at hread
  · rename_i hscript
    rw [if_pos hscript, contextualCheckNullAssetTxOut, demand_bind] at hcheck
    obtain ⟨⟨data, dest⟩, hdata, hcheck⟩ := hcheck
    rw [hdata] at hread
    simp only [Option.getD_some] at hread
    have hread' : .qualifier data.asset_name dest
      (ofFlag data.flag .ADD_QUALIFIER .REMOVE_QUALIFIER) =
        NullCommand.qualifier name address type := by
      split at hread
      · cases hread
      · exact Option.some.inj hread
      · exact Option.some.inj hread
      · cases hread
    cases hread'
    obtain ⟨t, hvalid, htype, hindicated, -⟩ := tagName_valid hname
    have hqualifier : isAssetNameAQualifier data.asset_name false = true := by
      have hmatch : Regex.regexMatch data.asset_name QUALIFIER_INDICATOR = true ∨
          Regex.regexMatch data.asset_name SUB_QUALIFIER_INDICATOR = true :=
        indicators_of_qualifier (by rwa [hindicated])
      rw [isAssetNameAQualifier, if_neg Bool.false_ne_true, isAssetNameAn, Regex.regexMatch_alt,
        hvalid]
      simpa using hmatch
    simp only [hqualifier, if_true] at hcheck
    exact ofFlag_of_verifyChange (by decide) hcheck
  · split at hread <;> cases hread

/-! ## The layers -/

/-- Where tags are kept: staged, in a cache, and in the database. -/
def tagLayers (st : AssetState) : Layers (Bytes × Bytes) Bytes (Bytes × Bytes) QualifierType :=
  ⟨st.passets.newQualifierAddress, st.passetsQualifierCache, st.prestricteddb.addressQualifiers⟩

theorem dumpGlobals_tagLayers : tagLayers (dumpGlobals cache st) = tagLayers st :=
  dumpGlobals_keeps fun _ _ _ => rfl

theorem dumpRestrictions_tagLayers :
    tagLayers (dumpRestrictions env cache st) = tagLayers st :=
  dumpRestrictions_keeps fun _ _ _ => rfl

theorem tagLayers_dumpQualifier {fUndo : Bool} {e : (Bytes × Bytes) × QualifierType} :
    tagLayers (dumpQualifier env fUndo st e) = (tagLayers st).write (tagCoding env) fUndo e := by
  obtain ⟨key, type⟩ := e
  cases type <;> cases fUndo <;> rfl

theorem tagLayers_dump :
    tagLayers (st.dumpCacheToDatabase env) = (tagLayers st).dump (tagCoding env) := by
  have hdump : tagLayers (st.dumpCacheToDatabase env) =
      { tagLayers (dumpGlobals st.passets (dumpRestrictions env st.passets
          (dumpQualifiers env st.passets (dumpAssets st.passets st)))) with staged := ∅ } := rfl
  have hassets : tagLayers (dumpAssets st.passets st) = tagLayers st :=
    congrArg (fun part : CAssetsCache × (LruCache Bytes Unit × LruCache Bytes Unit ×
        LruCache Bytes Unit) × StdMap (Bytes × Bytes) Unit × StdMap (Bytes × Bytes) Unit ×
        StdMap Bytes Unit =>
      (⟨part.1.newQualifierAddress, part.2.1.1, part.2.2.1⟩ :
        Layers (Bytes × Bytes) Bytes (Bytes × Bytes) QualifierType)) dumpAssets_commandPart
  rw [hdump, dumpGlobals_tagLayers, dumpRestrictions_tagLayers, dumpQualifiers,
    foldl_commutes fun _ _ _ => tagLayers_dumpQualifier,
    foldl_commutes fun _ _ _ => tagLayers_dumpQualifier, hassets]
  rfl

end UnemployCoin
