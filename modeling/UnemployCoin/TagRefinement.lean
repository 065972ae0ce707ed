import UnemployCoin.Tags
import UnemployCoin.Node
/-!
# What the asset caches say of tags

A lookup of a tag reads two things that are not kept in step.  The tags themselves are staged and
undone like freezes.  The sub qualifiers that were staged or undone since the last dump are
remembered for their qualifier, and **never forgotten** before the dump: `Flush` puts those that a
block takes off among those that it puts on.
-/

namespace UnemployCoin

open Check CAssetsCache Toggles

variable {env : Env}

/-! ## History -/

/-- The active chain, and the tags staged since the last dump: in order, each with whether its
command was undone. -/
structure TagHistory where
  chain : List CBlock
  staged : List ((Bytes × Bytes) × Bool)

def TagHistory.step (env : Env) (log : TagHistory) : NodeEvent → TagHistory
  | .connectTip _ block => ⟨block :: log.chain, log.staged ++ sides false (tagsOf env block.vtx)⟩
  | .disconnectTip _ =>
    match log.chain with
    | [] => log
    | block :: chain => ⟨chain, log.staged ++ sides true (tagsOf env block.vtx.reverse)⟩
  | .dump => { log with staged := [] }
  | .read _ => log

def tagHistory (env : Env) (events : List NodeEvent) : TagHistory :=
  events.foldl (TagHistory.step env) ⟨[], []⟩

theorem tagHistory_append (events : List NodeEvent) (e : NodeEvent) :
    tagHistory env (events ++ [e]) = (tagHistory env events).step env e := by
  rw [tagHistory, List.foldl_append, ← tagHistory]
  rfl

/-- A sub qualifier of `q` was put on the address, taken off it, or had that undone. -/
def SubTouched (staged : List ((Bytes × Bytes) × Bool)) (q address : Bytes) : Prop :=
  ∃ x, (x, address) ∈ staged.map Prod.fst ∧ IsSubTag x q

/-- Some sub qualifier of `q` is on the address. -/
def SubCarried (tagged : Set (Bytes × Bytes)) (q address : Bytes) : Prop :=
  ∃ x, IsSubTag x q ∧ (x, address) ∈ tagged

/-- What a lookup says: the tag is on the address, or its sub qualifiers speak for it.  A command
for the tag itself that was **undone** silences them; for `passets`, which reads its own sets
first, so does one that was not undone. -/
def Reported (fPassets : Bool) (staged : List ((Bytes × Bytes) × Bool))
    (tagged : Set (Bytes × Bytes)) (q address : Bytes) : Prop :=
  (q, address) ∈ tagged ∨
    match last? staged (q, address) with
    | none => SubTouched staged q address ∨ SubCarried tagged q address
    | some true => False
    | some false => fPassets = false ∧ SubTouched staged q address

/-- The history since the last dump does not mislead a lookup. -/
def Legible (fPassets : Bool) (staged : List ((Bytes × Bytes) × Bool))
    (tagged : Set (Bytes × Bytes)) (q address : Bytes) : Prop :=
  (q, address) ∈ tagged ∨
    match last? staged (q, address) with
    | none => SubTouched staged q address → SubCarried tagged q address
    | some true => ¬ SubCarried tagged q address
    | some false => (fPassets = false ∧ SubTouched staged q address) ↔ SubCarried tagged q address

theorem reported_iff_carriesTag {fPassets : Bool} {staged : List ((Bytes × Bytes) × Bool)}
    {tagged : Set (Bytes × Bytes)} {q address : Bytes} :
    (Reported fPassets staged tagged q address ↔ CarriesTag tagged q address) ↔
      Legible fPassets staged tagged q address := by
  rw [Reported, CarriesTag, Legible, ← SubCarried]
  by_cases hmem : (q, address) ∈ tagged
  · simp only [hmem, true_or]
  · simp only [hmem, false_or]
    cases last? staged (q, address) with
    | none =>
      exact ⟨fun h htouched => h.1 (Or.inl htouched), fun h => ⟨fun h' => h'.elim h id, Or.inr⟩⟩
    | some undone =>
      cases undone with
      | true => exact ⟨fun h hcarried => h.2 hcarried, fun h => ⟨False.elim, h⟩⟩
      | false => exact Iff.rfl

/-! ## The invariant -/

def tagKeys (K : Set (Bytes × Bytes)) : Set (Bytes × Bytes) := {key ∈ K | TagName key.1}

/-- The tags of each block are known, and change what the chain below says. -/
def ChainTags (env : Env) (K : Set (Bytes × Bytes)) : List CBlock → Prop
  | [] => True
  | block :: chain => (∀ e ∈ tagsOf env block.vtx, e.1 ∈ K) ∧
      Changes (tagCoding env) (taggedAddresses env chain) (tagsOf env block.vtx) ∧
      ChainTags env K chain

structure TagsTracked (env : Env) (K : Set (Bytes × Bytes)) (log : TagHistory) (n : Node) :
    Prop where
  chain : log.chain = n.chainActive
  layers : Tracks (tagCoding env) K (tagLayers n.st) (taggedAddresses env n.chainActive)
  changes : ChainTags env K n.chainActive
  known : ∀ e ∈ log.staged, e.1 ∈ tagKeys K
  onSide : ∀ key, side n.st.passets.newQualifierAddress key = last? log.staged key
  subs : ∀ key x, x ∈ subTags n.st.passets.mapRootQualifierAddressesAdd key ↔
    (x, key.2) ∈ log.staged.map Prod.fst ∧ IsSubTag x key.1
  stored : ∀ key : Bytes × Bytes,
    n.st.prestricteddb.addressQualifiers.count key.swap = true → key ∈ tagKeys K

variable {K : Set (Bytes × Bytes)} {n n' : Node} {log : TagHistory}

theorem ChainTags.taggedAddresses_subset {chain : List CBlock} (h : ChainTags env K chain) :
    taggedAddresses env chain ⊆ tagKeys K := by
  induction chain with
  | nil => exact Set.empty_subset _
  | cons block chain ih =>
    obtain ⟨hknown, -, hrest⟩ := h
    intro key hkey
    rw [taggedAddresses, mem_applyTo] at hkey
    split at hkey
    · rename_i t hlast
      have hmem := mem_of_last? hlast
      exact ⟨hknown _ hmem, tagName_of_tagsOf hmem⟩
    · exact ih hrest hkey

theorem TagsTracked.genesis : TagsTracked env K ⟨[], []⟩ .genesis where
  chain := rfl
  layers := Tracks.empty _
  changes := trivial
  known := fun _ h => absurd h List.not_mem_nil
  onSide := fun _ => rfl
  subs key x := by
    have hempty : Node.genesis.st.passets.mapRootQualifierAddressesAdd = ∅ := rfl
    rw [hempty, subTags_empty]
    simp
  stored key h := by
    have hempty : Node.genesis.st.prestricteddb.addressQualifiers = ∅ := rfl
    rw [hempty, StdMap.count_empty] at h
    cases h

theorem checkForAddressRootQualifier_iff {db : CRestrictedDB} {address q : Bytes} :
    checkForAddressRootQualifier db address q = true ↔
      db.addressQualifiers.count (address, q) = true ∨
        ∃ x, IsSubTag x q ∧ db.addressQualifiers.count (address, x) = true := by
  rw [checkForAddressRootQualifier, List.any_eq_true]
  simp only [StdMap.mem_keys, Bool.and_eq_true, Bool.or_eq_true, beq_iff_eq,
    List.isPrefixOf_iff_prefix]
  constructor
  · rintro ⟨⟨a, x⟩, hcount, rfl, rfl | hsub⟩
    · exact Or.inl hcount
    · exact Or.inr ⟨x, hsub, hcount⟩
  · rintro (hcount | ⟨x, hsub, hcount⟩)
    · exact ⟨_, hcount, rfl, Or.inl rfl⟩
    · exact ⟨_, hcount, rfl, Or.inr hsub⟩

theorem TagsTracked.subCarried_iff (hn : TagsTracked env K log n) {q address : Bytes}
    (hnot : ¬ SubTouched log.staged q address) :
    (∃ x, IsSubTag x q ∧ n.st.prestricteddb.addressQualifiers.count (address, x) = true) ↔
      SubCarried (taggedAddresses env n.chainActive) q address := by
  refine exists_congr fun x => and_congr_right fun hsub => ?_
  have hlast : last? log.staged (x, address) = none := by
    rw [last?_eq_none]
    intro e he heq
    exact hnot ⟨x, List.mem_map.2 ⟨e, he, heq⟩, hsub⟩
  have hside := (hn.onSide (x, address)).trans hlast
  constructor
  · intro hcount
    have hkey := (hn.stored (x, address) hcount).1
    exact (hn.layers.of_side_none hkey hside).1 hcount
  · intro hmem
    have hkey := (hn.changes.taggedAddresses_subset hmem).1
    exact (hn.layers.of_side_none hkey hside).2 hmem

/-- A tag that `passets` has staged as put on is on, and one that it has as taken off is off. -/
theorem TagsTracked.tagged_iff_of_toAdd (hn : TagsTracked env K log n) {q address : Bytes}
    (hkey : (q, address) ∈ K) {type : QualifierType}
    (hremove : n.st.passets.newQualifierAddress.toRemove.find? (q, address) = none)
    (hadd : n.st.passets.newQualifierAddress.toAdd.find? (q, address) = some type) :
    (q, address) ∈ taggedAddresses env n.chainActive ↔ type = .ADD_QUALIFIER := by
  have hanswer := hn.layers.answer _ hkey
  have hremoves : (tagLayers n.st).staged.toRemove.find? (q, address) = none := hremove
  have hadds : (tagLayers n.st).staged.toAdd.find? (q, address) = some type := hadd
  rw [Layers.answer, hremoves, hadds] at hanswer
  rw [← hanswer]
  exact beq_iff_eq

/-- **The answer of a lookup**, whatever was staged. -/
theorem TagsTracked.checkForAddressQualifier_iff (hn : TagsTracked env K log n) {q address : Bytes}
    (hkey : (q, address) ∈ K) (cache : CAssetsCache) :
    cache.checkForAddressQualifier env n.st q address true = true ↔
      Reported false log.staged (taggedAddresses env n.chainActive) q address := by
  have hanswer := hn.layers.answer _ hkey
  have hside := hn.onSide (q, address)
  have hsub : hasSubQualifier n.st.passets.mapRootQualifierAddressesAdd (q, address) = true ↔
      SubTouched log.staged q address := by
    rw [hasSubQualifier_iff]
    exact exists_congr fun x => hn.subs (q, address) x
  rw [Layers.answer] at hanswer
  rw [side, StdMap.count, StdMap.count] at hside
  rw [Reported, checkForAddressQualifier, ← hside]
  simp only [if_true, Bool.not_true, Bool.false_and, Bool.false_eq_true, if_false]
  have hremoves : (tagLayers n.st).staged.toRemove.find? (q, address) =
    n.st.passets.newQualifierAddress.toRemove.find? (q, address) := rfl
  have hadds : (tagLayers n.st).staged.toAdd.find? (q, address) =
    n.st.passets.newQualifierAddress.toAdd.find? (q, address) := rfl
  rw [hremoves, hadds] at hanswer
  cases hremove : n.st.passets.newQualifierAddress.toRemove.find? (q, address) with
  | some type =>
    rw [hremove] at hanswer
    simp only [Option.isSome_some, if_true, or_false]
    exact hanswer
  | none =>
    rw [hremove] at hanswer
    simp only [Option.isSome_none, Bool.false_eq_true, if_false]
    cases hadd : n.st.passets.newQualifierAddress.toAdd.find? (q, address) with
    | some type =>
      have htagged := hn.tagged_iff_of_toAdd hkey hremove hadd
      simp only [Option.isSome_some, if_true]
      cases type with
      | ADD_QUALIFIER => exact iff_of_true rfl (Or.inl (htagged.2 rfl))
      | REMOVE_QUALIFIER =>
        rw [or_iff_right (fun h => by cases htagged.1 h), hsub]
        exact (and_iff_right trivial).symm
    | none =>
      rw [hadd] at hanswer
      simp only [Option.isSome_none, Bool.false_eq_true, if_false]
      by_cases htouched : SubTouched log.staged q address
      · rw [if_pos (hsub.2 htouched)]
        exact iff_of_true rfl (Or.inr (Or.inl htouched))
      · rw [if_neg fun h => htouched (hsub.1 h), or_iff_right htouched,
          ← hn.subCarried_iff htouched, ← hanswer]
        simp only [Layers.stored, Bool.or_eq_true]
        have hcache : (tagLayers n.st).cache.exist ((tagCoding env).cacheKey (q, address)) =
          n.st.passetsQualifierCache.exist (cacheHash env q address) := rfl
        have hdb : (tagLayers n.st).db.count ((tagCoding env).dbKey (q, address)) =
          n.st.prestricteddb.addressQualifiers.count (address, q) := rfl
        rw [hcache, hdb]
        split
        · rename_i hexist
          simp [hexist]
        · rename_i hexist
          rw [Bool.or_eq_true, checkForAddressRootQualifier_iff]
          simp only [hexist, Bool.false_eq_true, false_or]
          rw [← or_assoc, or_self]

theorem checkForAddressQualifier_passets (st : AssetState) (q address : Bytes) :
    st.passets.checkForAddressQualifier env st q address false =
      if st.passets.newQualifierAddress.toRemove.find? (q, address) = none ∧
          st.passets.newQualifierAddress.toAdd.find? (q, address) =
          some .REMOVE_QUALIFIER then false
      else st.passets.checkForAddressQualifier env st q address true := by
  rw [checkForAddressQualifier, checkForAddressQualifier]
  simp only [Bool.false_eq_true, if_false, if_true, Bool.not_true, Bool.false_and]
  cases st.passets.newQualifierAddress.toRemove.find? (q, address) with
  | some type => simp
  | none =>
    cases st.passets.newQualifierAddress.toAdd.find? (q, address) with
    | some type => cases type <;> simp
    | none => simp

/-- **What `passets` itself answers**: a tag that it has as taken off is off. -/
theorem TagsTracked.passets_iff (hn : TagsTracked env K log n) {q address : Bytes}
    (hkey : (q, address) ∈ K) :
    n.st.passets.checkForAddressQualifier env n.st q address false = true ↔
      Reported true log.staged (taggedAddresses env n.chainActive) q address := by
  have hside := hn.onSide (q, address)
  rw [side, StdMap.count, StdMap.count] at hside
  rw [checkForAddressQualifier_passets]
  have hlookup := hn.checkForAddressQualifier_iff hkey n.st.passets
  rw [Reported, ← hside] at hlookup ⊢
  cases hremove : n.st.passets.newQualifierAddress.toRemove.find? (q, address) with
  | some type =>
    rw [hremove] at hlookup
    simpa using hlookup
  | none =>
    rw [hremove] at hlookup
    cases hadd : n.st.passets.newQualifierAddress.toAdd.find? (q, address) with
    | none =>
      rw [hadd] at hlookup
      simpa using hlookup
    | some type =>
      have htagged := hn.tagged_iff_of_toAdd hkey hremove hadd
      rw [hadd] at hlookup
      cases type with
      | ADD_QUALIFIER => simpa [htagged.2 rfl] using hlookup
      | REMOVE_QUALIFIER =>
        have hnot : (q, address) ∉ taggedAddresses env n.chainActive := fun h => by
          cases htagged.1 h
        simp [hnot]

/-! ## The steps -/

/-- The condition on a step.  The tags that a connected block puts on addresses or takes off, and
those that are looked up, are in `K`; a tag is taken off only an address that has it, not one that
has only a sub qualifier of it; no coinbase carries a command; and what is active when a block with
commands is connected is active when it is disconnected. -/
def TagStep (env : Env) (K : Set (Bytes × Bytes)) (n : Node) : NodeEvent → Prop
  | .connectTip ctx block =>
    CoinbaseWithoutCommands (env.withTip ctx) block ∧ ∀ e ∈ tagsOf env block.vtx,
      e.1 ∈ K ∧ (e.2 = .REMOVE_QUALIFIER → e.1 ∈ taggedAddresses env n.chainActive)
  | .disconnectTip ctx => ∀ block ∈ n.chainActive.head?, commandsOf env block.vtx ≠ [] →
    ctx.dep.areAssetsDeployed = true ∧ ctx.dep.areRestrictedAssetsDeployed = true
  | .read (.qualifier name address) => (name, address) ∈ K
  | .read _ | .dump => True

theorem mem_subTags_flush {local_ passets : CAssetsCache} {key : Bytes × Bytes} {x : Bytes}
    {staged : List ((Bytes × Bytes) × Bool)} {fUndo : Bool}
    {tags : List ((Bytes × Bytes) × QualifierType)}
    (hpassets : x ∈ subTags passets.mapRootQualifierAddressesAdd key ↔
      (x, key.2) ∈ staged.map Prod.fst ∧ IsSubTag x key.1)
    (hlocal : x ∈ local_.touched key ↔ (x, key.2) ∈ tags.map Prod.fst ∧ IsSubTag x key.1) :
    x ∈ subTags (local_.flushInto passets).mapRootQualifierAddressesAdd key ↔
      (x, key.2) ∈ (staged ++ sides fUndo tags).map Prod.fst ∧ IsSubTag x key.1 := by
  have hkeys : (sides fUndo tags).map Prod.fst = tags.map Prod.fst := by
    rw [sides, List.map_map]
    rfl
  rw [flushInto, subTags_merge, subTags_merge, List.map_append, List.mem_append, hkeys,
    or_and_right, ← hpassets, ← hlocal, touched]
  simp only [Set.mem_union]
  tauto

theorem TagsTracked.changes_of_connectBlock {ctx : TipContext} {block : CBlock} {s : ConnectState}
    (hn : TagsTracked env K log n) (he : TagStep env K n (.connectTip ctx block))
    (hgenesis : block.hash ≠ (env.withTip ctx).params.hashGenesisBlock)
    (hs : connectBlock (env.withTip ctx) n.st ⟨ctx.rules, n.height + 1, ctx.mempool⟩ block
      n.view .empty = .ok s) :
    Changes (tagCoding env) (taggedAddresses env n.chainActive) (tagsOf env block.vtx) := by
  obtain ⟨hcoinbase, hknown⟩ := he
  rintro ⟨⟨name, address⟩, type⟩ hmem
  obtain ⟨hkey, hremove⟩ := hknown _ hmem
  obtain ⟨command, hcommand, hread⟩ := List.mem_filterMap.1 hmem
  cases command with
  | restricted => cases hread
  | global => cases hread
  | qualifier name address type =>
    cases hread
    have hchecked := commandChecked_of_connectBlock hgenesis hcoinbase hs hcommand
    obtain ⟨cache, htype, hadd⟩ := tagChange_of_checked (tagName_of_tagsOf hmem) hchecked
    constructor
    · intro hon htagged
      have hfalse := hadd.1 hon
      have htrue : cache.checkForAddressQualifier env n.st name address true = true :=
        (hn.checkForAddressQualifier_iff hkey cache).2 (Or.inl htagged)
      have hsame : cache.checkForAddressQualifier (env.withTip ctx) n.st name address true =
        cache.checkForAddressQualifier env n.st name address true := rfl
      rw [hsame, htrue] at hfalse
      cases hfalse
    · intro hnot
      exact htype.resolve_right fun hoff => hnot (hremove hoff)

theorem TagsTracked.connectTip {ctx : TipContext} {block : CBlock}
    (hn : TagsTracked env K log n) (he : TagStep env K n (.connectTip ctx block))
    (h : n.connectTip env ctx block = some n') :
    TagsTracked env K (log.step env (.connectTip ctx block)) n' := by
  obtain ⟨s, hs, hgenesis, -, hchain, blockUndo, hst⟩ := connectTip_eq_some h
  have hgenesis' : block.hash ≠ (env.withTip ctx).params.hashGenesisBlock := hgenesis
  obtain ⟨hstaged, htouched⟩ := connectBlock_tags hgenesis' he.1 hs
  have hchanges := hn.changes_of_connectBlock he hgenesis' hs
  have hstaged' : s.assetsCache.newQualifierAddress = stageAll (tagsOf env block.vtx) := hstaged
  have hlayers : tagLayers n'.st = { tagLayers n.st with
      staged := Staged.flush true (stageAll (tagsOf env block.vtx))
        n.st.passets.newQualifierAddress } := by rw [hst, ← hstaged']; rfl
  have hknown : Known (tagCoding env) K (tagsOf env block.vtx) := by
    intro e hmem
    refine ⟨(he.2 e hmem).1, ?_⟩
    cases e.2 with
    | ADD_QUALIFIER => exact Or.inl rfl
    | REMOVE_QUALIFIER => exact Or.inr rfl
  constructor
  · rw [hchain, ← hn.chain]
    rfl
  · rw [hlayers, hchain]
    exact hn.layers.connect hknown
  · rw [hchain]
    exact ⟨fun e hmem => (hknown e hmem).1, hchanges, hn.changes⟩
  · intro e hmem
    rcases List.mem_append.1 hmem with hold | hnew
    · exact hn.known e hold
    · obtain ⟨e', he', rfl⟩ := List.mem_map.1 hnew
      exact ⟨(hknown e' he').1, tagName_of_tagsOf he'⟩
  · intro key
    rw [hst]
    have hflush : (s.assetsCache.flushInto n.st.passets).newQualifierAddress =
        Staged.flush true s.assetsCache.newQualifierAddress n.st.passets.newQualifierAddress := rfl
    simp only
    rw [hflush, hstaged']
    exact side_flush_stageAll (hn.onSide key)
  · intro key x
    rw [hst]
    exact mem_subTags_flush (hn.subs key x) (htouched key x)
  · rw [hst]
    exact hn.stored

theorem TagsTracked.disconnectTip {ctx : TipContext} (hn : TagsTracked env K log n)
    (he : TagStep env K n (.disconnectTip ctx)) (h : n.disconnectTip env ctx = some n') :
    TagsTracked env K (log.step env (.disconnectTip ctx)) n' := by
  obtain ⟨block, vtxundo, s, hchain, hs, -, -, hst⟩ := disconnectTip_eq_some h
  have hdep : commandsOf (env.withTip ctx) block.vtx ≠ [] →
      ctx.dep.areAssetsDeployed = true ∧ ctx.dep.areRestrictedAssetsDeployed = true :=
    he block (by rw [hchain]; rfl)
  obtain ⟨hstaged, htouched⟩ := disconnectBlock_tags hdep hs
  have hstaged' : s.assetsCache.newQualifierAddress =
    stageRemovals (tagsOf env block.vtx.reverse) := hstaged
  have htags := hn.changes
  rw [hchain] at htags
  obtain ⟨hknown, hchanges, hrest⟩ := htags
  have hlog : log.step env (.disconnectTip ctx) =
      ⟨n'.chainActive, log.staged ++ sides true (tagsOf env block.vtx.reverse)⟩ := by
    rw [TagHistory.step, hn.chain, hchain]
  have hlayers : tagLayers n'.st = { tagLayers n.st with
      staged := Staged.flush true (stageRemovals (tagsOf env block.vtx.reverse))
        n.st.passets.newQualifierAddress } := by rw [hst, ← hstaged']; rfl
  have hlayersn := hn.layers
  rw [hchain] at hlayersn
  rw [hlog]
  constructor
  · rfl
  · rw [hlayers]
    refine hlayersn.disconnect (fun e hmem => ⟨hknown e hmem, ?_⟩) hchanges fun e =>
      mem_tagsOf_reverse
    cases e.2 with
    | ADD_QUALIFIER => exact Or.inl rfl
    | REMOVE_QUALIFIER => exact Or.inr rfl
  · exact hrest
  · intro e hmem
    rcases List.mem_append.1 hmem with hold | hnew
    · exact hn.known e hold
    · obtain ⟨e', he', rfl⟩ := List.mem_map.1 hnew
      exact ⟨hknown e' (mem_tagsOf_reverse.1 he'), tagName_of_tagsOf he'⟩
  · intro key
    rw [hst]
    have hflush : (n.st.flush s.assetsCache).passets.newQualifierAddress =
        Staged.flush true s.assetsCache.newQualifierAddress n.st.passets.newQualifierAddress := rfl
    rw [hflush, hstaged']
    exact side_flush_stageRemovals (hn.onSide key)
  · intro key x
    rw [hst]
    exact mem_subTags_flush (hn.subs key x) (htouched key x)
  · rw [hst]
    exact hn.stored

theorem TagsTracked.dump (hn : TagsTracked env K log n)
    (hinj : Set.InjOn (tagCoding env).cacheKey K) :
    TagsTracked env K (log.step env .dump) { n with st := n.st.dumpCacheToDatabase env } := by
  constructor
  · exact hn.chain
  · simp only [tagLayers_dump]
    exact hn.layers.dump hinj
  · exact hn.changes
  · exact fun e hmem => absurd hmem List.not_mem_nil
  · exact fun key => side_empty
  · intro key x
    have hempty : (n.st.dumpCacheToDatabase env).passets.mapRootQualifierAddressesAdd = ∅ := rfl
    rw [hempty, subTags_empty]
    exact iff_of_false (Set.notMem_empty x) fun hmem => absurd hmem.1 List.not_mem_nil
  · intro key hcount
    have hdb : (n.st.dumpCacheToDatabase env).prestricteddb.addressQualifiers =
        ((tagLayers n.st).dump (tagCoding env)).db := congrArg Layers.db tagLayers_dump
    have hdump : ((tagLayers n.st).dump (tagCoding env)).db.count ((tagCoding env).dbKey key) =
        true := by
      rw [← hdb]
      exact hcount
    rcases of_count_dump hdump with hside | hold
    · have hlast : last? log.staged key ≠ none := by
        rw [← hn.onSide]
        exact hside
      obtain ⟨undone, hundone⟩ := Option.ne_none_iff_exists'.1 hlast
      exact hn.known _ (mem_of_last? hundone)
    · exact hn.stored key hold

theorem TagsTracked.read (hn : TagsTracked env K log n)
    (hinj : Set.InjOn (tagCoding env).cacheKey K) {lookup : CacheRead}
    (he : TagStep env K n (.read lookup)) :
    TagsTracked env K (log.step env (.read lookup)) { n with st := n.st.read env lookup } := by
  obtain ⟨hpassets, -, hdb⟩ := read_passets env n.st lookup
  have hlayers : Tracks (tagCoding env) K (tagLayers (n.st.read env lookup))
      (taggedAddresses env n.chainActive) := by
    cases lookup with
    | asset name => exact hn.layers
    | verifier name => exact hn.layers
    | qualifier name address => exact hn.layers.load hinj he
    | restriction name address => exact hn.layers
    | globalRestriction name => exact hn.layers
  refine ⟨hn.chain, hlayers, hn.changes, hn.known, ?_, ?_, ?_⟩
  · simp only [hpassets]
    exact hn.onSide
  · simp only [hpassets]
    exact hn.subs
  · simp only [hdb]
    exact hn.stored

theorem TagsTracked.step {e : NodeEvent} (hn : TagsTracked env K log n)
    (hinj : Set.InjOn (tagCoding env).cacheKey K) (he : TagStep env K n e)
    (h : (node env).step n e = some n') : TagsTracked env K (log.step env e) n' := by
  cases e with
  | connectTip ctx block => exact hn.connectTip he h
  | disconnectTip ctx => exact hn.disconnectTip he h
  | dump =>
    cases h
    exact hn.dump hinj
  | read lookup =>
    cases h
    exact hn.read hinj he

/-- **When a lookup answers as the chain says.**  After any run along `TagStep`, the lookup of a tag
through an empty local cache, or of `passets` itself, says whether the address carries it under the
commands of the active chain if and only if the tags staged since the last dump are legible for
it. -/
theorem checkForAddressQualifier_correct_iff {events : List NodeEvent}
    (hinj : Set.InjOn (fun key : Bytes × Bytes => cacheHash env key.1 key.2) K)
    (halong : (node env).Along (TagStep env K) .genesis events)
    (h : (node env).exec .genesis events = some n) {q address : Bytes}
    (hkey : (q, address) ∈ K) (fSkipTempCache : Bool) :
    ((CAssetsCache.empty.checkForAddressQualifier env n.st q address fSkipTempCache = true ↔
        CarriesTag (taggedAddresses env n.chainActive) q address) ↔
      Legible false (tagHistory env events).staged (taggedAddresses env n.chainActive) q
        address) ∧
    ((n.st.passets.checkForAddressQualifier env n.st q address fSkipTempCache = true ↔
        CarriesTag (taggedAddresses env n.chainActive) q address) ↔
      Legible (!fSkipTempCache) (tagHistory env events).staged
        (taggedAddresses env n.chainActive) q address) := by
  have hn : TagsTracked env K (tagHistory env events) n := by
    refine Machine.exec_history (H := fun past n => TagsTracked env K (tagHistory env past) n)
      ?_ .genesis halong h
    intro past n e n' hn he hstep
    rw [tagHistory_append]
    exact hn.step hinj he hstep
  have hempty : CAssetsCache.empty.checkForAddressQualifier env n.st q address fSkipTempCache =
      CAssetsCache.empty.checkForAddressQualifier env n.st q address true := by
    cases fSkipTempCache <;> rfl
  rw [hempty, hn.checkForAddressQualifier_iff hkey]
  refine ⟨reported_iff_carriesTag, ?_⟩
  cases fSkipTempCache with
  | true =>
    rw [hn.checkForAddressQualifier_iff hkey]
    exact reported_iff_carriesTag
  | false =>
    rw [hn.passets_iff hkey]
    exact reported_iff_carriesTag

/-! ### Tags of one address -/

def tagEnv : Env :=
  { payableEnv with
    params :=
      { payableEnv.params with
        strIssueQualifierAssetBurnAddress := ascii "UNAdiGx5PWEsPRiq4jtvgEWPngMi7rkdiG"
        strIssueSubQualifierAssetBurnAddress := ascii "UNAdiGx5PWEsPRiq4jtvgEWPngMi7rkdiG"
        strAddNullQualifierTagBurnAddress := ascii "UNAdiGx5PWEsPRiq4jtvgEWPngMi7rkdiG" } }

def burnOutput (nValue : CAmount) : CTxOut := ⟨nValue, getScriptForKeyID (keyHash 2)⟩

def newTag (name : String) : CTxOut where
  nValue := 0
  scriptPubKey := CNewAsset.constructTransaction ⟨ascii name, COIN, 0, 0, 0, []⟩
    (getScriptForKeyID (keyHash 1))

def transferTag (name : String) : CTxOut where
  nValue := 0
  scriptPubKey := CAssetTransfer.constructTransaction ⟨ascii name, COIN, [], 0⟩
    (getScriptForKeyID (keyHash 1))

def tagOutput (name : String) (flag : Int8) : CTxOut where
  nValue := 0
  scriptPubKey := [OP_UNEMP_ASSET] ++ CScript.pushData (keyHash 1) ++
    CScript.pushData (CNullAssetTxData.serialize ⟨ascii name, flag⟩)

def taggedAddress : Bytes := addressOf tagEnv (tagOutput "#TAG" 1).scriptPubKey

/-- `#TAG` and `#TAG/#SUB` are issued. -/
def issueTagsBlock : CBlock :=
  ⟨1001, [coinbaseTx 1001 (5000 * COIN),
    ⟨2001, [⟨⟨0, 0⟩, []⟩], [burnOutput (1000 * COIN), newTag "#TAG"]⟩,
    ⟨2002, [⟨⟨1, 0⟩, []⟩, ⟨⟨2001, 1⟩, []⟩],
      [burnOutput (100 * COIN), transferTag "#TAG", newTag "#TAG/#SUB"]⟩]⟩

/-- `#TAG` is put on key 1. -/
def tagBlock : CBlock :=
  ⟨1002, [coinbaseTx 1002 (5000 * COIN),
    ⟨2003, [⟨⟨2, 0⟩, []⟩, ⟨⟨2002, 1⟩, []⟩],
      [burnOutput 10000000, transferTag "#TAG", tagOutput "#TAG" 1]⟩]⟩

/-- `#TAG/#SUB` is put on key 1. -/
def subTagBlock : CBlock :=
  ⟨1002, [coinbaseTx 1002 (5000 * COIN),
    ⟨2003, [⟨⟨2, 0⟩, []⟩, ⟨⟨2002, 2⟩, []⟩],
      [burnOutput 10000000, transferTag "#TAG/#SUB", tagOutput "#TAG/#SUB" 1]⟩]⟩

/-- `#TAG/#SUB` is taken off key 1. -/
def untagBlock : CBlock :=
  ⟨1003, [coinbaseTx 1003 (5000 * COIN),
    ⟨2004, [⟨⟨2003, 1⟩, []⟩], [transferTag "#TAG/#SUB", tagOutput "#TAG/#SUB" 0]⟩]⟩

def tagRun : List NodeEvent :=
  connects (coinbaseChain 101) ++
    [.connectTip activeContext issueTagsBlock, .connectTip activeContext tagBlock]

/-- The events of a sub qualifier: it is put on key 1 and taken off again. -/
def untagRun : List NodeEvent :=
  connects (coinbaseChain 101) ++ [.connectTip activeContext issueTagsBlock,
    .connectTip activeContext subTagBlock, .connectTip activeContext untagBlock]

/-- The tag that is put on key 1 is found. -/
theorem tagRun_found :
    ∃ n, (node tagEnv).exec .genesis tagRun = some n ∧
      CAssetsCache.empty.checkForAddressQualifier tagEnv n.st (ascii "#TAG") taggedAddress false =
        true ∧
      n.st.passets.checkForAddressQualifier tagEnv n.st (ascii "#TAG") taggedAddress false =
        true := by
  have hrun : ((node tagEnv).exec .genesis tagRun).map (fun n =>
      n.chainActive.reverse.flatMap fun block => tagsOf tagEnv block.vtx) =
        some [((ascii "#TAG", taggedAddress), .ADD_QUALIFIER)] := by
    rw [tagRun, exec_coinbaseChain ⟨rfl, rfl⟩ (by decide)]
    decide +kernel
  obtain ⟨n, hexec, htags⟩ := Option.map_eq_some_iff.1 hrun
  have htagged : (ascii "#TAG", taggedAddress) ∈ taggedAddresses tagEnv n.chainActive := by
    rw [taggedAddresses_eq, htags]
    exact Set.mem_insert _ _
  have hinj : Set.InjOn (fun key : Bytes × Bytes => cacheHash tagEnv key.1 key.2)
      {(ascii "#TAG", taggedAddress)} := Set.injOn_singleton _ _
  have halong : (node tagEnv).Along (TagStep tagEnv {(ascii "#TAG", taggedAddress)}) .genesis
      tagRun := by
    refine Machine.Along.of_forall fun e he s => ?_
    rcases List.mem_append.1 he with hmem | hmem
    · obtain ⟨pair, hpair, rfl⟩ := List.mem_map.1 hmem
      obtain ⟨h, -, rfl⟩ := List.mem_map.1 hpair
      have hnone : commandsOf tagEnv (coinbaseBlock h).vtx = [] := rfl
      refine ⟨Or.inr fun tx htx _ => List.flatMap_eq_nil_iff.1 hnone tx htx, ?_⟩
      rw [tagsOf_eq_nil hnone]
      exact fun _ hmem => nomatch hmem
    · simp only [List.mem_cons, List.not_mem_nil, or_false] at hmem
      rcases hmem with rfl | rfl
      · have hnone : tagsOf tagEnv issueTagsBlock.vtx = [] := by decide +kernel
        refine ⟨Or.inl rfl, ?_⟩
        rw [hnone]
        exact fun _ hmem => nomatch hmem
      · have hone : tagsOf tagEnv tagBlock.vtx =
            [((ascii "#TAG", taggedAddress), .ADD_QUALIFIER)] := by decide +kernel
        refine ⟨Or.inl rfl, ?_⟩
        rw [hone]
        rintro e he
        obtain rfl := List.mem_singleton.1 he
        refine ⟨rfl, fun hremove => ?_⟩
        cases hremove
  have hcorrect := checkForAddressQualifier_correct_iff hinj halong hexec rfl false
  exact ⟨n, hexec, (hcorrect.1.2 (Or.inl htagged)).2 (Or.inl htagged),
    (hcorrect.2.2 (Or.inl htagged)).2 (Or.inl htagged)⟩

/-- A sub qualifier that was put on an address and taken off again still speaks for its tag,
until the next dump. -/
theorem untagRun_remembered :
    ∃ n n', (node tagEnv).exec .genesis untagRun = some n ∧
      (node tagEnv).exec .genesis (untagRun ++ [.dump]) = some n' ∧
      ¬ CarriesTag (taggedAddresses tagEnv n.chainActive) (ascii "#TAG") taggedAddress ∧
      CAssetsCache.empty.checkForAddressQualifier tagEnv n.st (ascii "#TAG") taggedAddress true =
        true ∧
      CAssetsCache.empty.checkForAddressQualifier tagEnv n'.st (ascii "#TAG") taggedAddress true =
        false := by
  have hrun : ((node tagEnv).exec .genesis untagRun).map (fun n =>
      (n.chainActive.reverse.flatMap fun block => tagsOf tagEnv block.vtx,
        CAssetsCache.empty.checkForAddressQualifier tagEnv n.st (ascii "#TAG") taggedAddress true,
        CAssetsCache.empty.checkForAddressQualifier tagEnv (n.st.dumpCacheToDatabase tagEnv)
          (ascii "#TAG") taggedAddress true)) =
        some ([((ascii "#TAG/#SUB", taggedAddress), .ADD_QUALIFIER),
          ((ascii "#TAG/#SUB", taggedAddress), .REMOVE_QUALIFIER)], true, false) := by
    rw [untagRun, exec_coinbaseChain ⟨rfl, rfl⟩ (by decide)]
    decide +kernel
  obtain ⟨n, hexec, hn⟩ := Option.map_eq_some_iff.1 hrun
  obtain ⟨htags, hanswers⟩ := Prod.mk.inj hn
  obtain ⟨hbefore, hafter⟩ := Prod.mk.inj hanswers
  refine ⟨n, _, hexec, Machine.exec_append.2 ⟨n, hexec, rfl⟩, ?_, hbefore, hafter⟩
  have hempty : taggedAddresses tagEnv n.chainActive = ∅ := by
    rw [taggedAddresses_eq, htags]
    simp [applyTo, tagCoding]
  rw [hempty]
  rintro (hmem | ⟨x, -, hmem⟩)
  · exact Set.notMem_empty _ hmem
  · exact Set.notMem_empty _ hmem

end UnemployCoin
