import UnemployCoin.HeaderIndex
/-!
# The block index is loaded as it was written

`LoadBlockIndexGuts` makes the entries again, in the order of the database, which knows nothing of
parents; `LoadBlockIndexDB` then computes the work, going up by height.
-/

namespace UnemployCoin

open Check StdMap

section Loading

variable {H : HeaderHashes} {P : HeaderParams} {m m₁ m₂ : BlockMap} {hash : arith_uint256}
  {e : CBlockIndex}

/-! ## One entry -/

/-- The entry that `LoadBlockIndexGuts` makes of one that was written. -/
def loadedIndex (P : HeaderParams) (e : CBlockIndex) : CBlockIndex :=
  { ((CDiskBlockIndex.ofIndex e).stored P).toCBlockIndex with pprev := e.pprev }

/-- **The hash of an entry on disk** is that of the header the entry gives out: what is not stored
is not hashed. -/
theorem getBlockHash_stored (e : CBlockIndex) :
    ((CDiskBlockIndex.ofIndex e).stored P).getBlockHash H P = e.getBlockHeader.getHash H P := by
  rw [CDiskBlockIndex.getBlockHash, CBlockHeader.getHash, CBlockHeader.getHash]
  by_cases htime : e.nTime < P.nKAWPOWActivationTime
  · have hpow : CDiskBlockIndex.powFields P e.nTime e.nNonce e.nNonce64 e.mix_hash =
        (e.nNonce, 0, 0) := if_pos htime
    have htime₁ : ((CDiskBlockIndex.ofIndex e).stored P).nTime < P.nKAWPOWActivationTime := htime
    have htime₂ : e.getBlockHeader.nTime < P.nKAWPOWActivationTime := htime
    have hnonce : ((CDiskBlockIndex.ofIndex e).stored P).nNonce = e.nNonce := congrArg Prod.fst hpow
    rw [if_pos htime₁, if_pos htime₂]
    simp only [CBlockHeader.x16rHash, hnonce]
    rfl
  · have hpow : CDiskBlockIndex.powFields P e.nTime e.nNonce e.nNonce64 e.mix_hash =
        (0, e.nNonce64, e.mix_hash) := if_neg htime
    have htime₁ : ¬ ((CDiskBlockIndex.ofIndex e).stored P).nTime < P.nKAWPOWActivationTime := htime
    have htime₂ : ¬ e.getBlockHeader.nTime < P.nKAWPOWActivationTime := htime
    have hnonce : ((CDiskBlockIndex.ofIndex e).stored P).nNonce64 = e.nNonce64 :=
      congrArg (fun p => p.2.1) hpow
    have hmix : ((CDiskBlockIndex.ofIndex e).stored P).mix_hash = e.mix_hash :=
      congrArg (fun p => p.2.2) hpow
    rw [if_neg htime₁, if_neg htime₂]
    simp only [CBlockHeader.kawpowHash_OnlyMix, hnonce, hmix]
    rfl

theorem sameEntry_loadedIndex (e : CBlockIndex) :
    SameEntry P e { loadedIndex P e with nChainWork := e.nChainWork } := by
  refine ⟨rfl, rfl, rfl, rfl, rfl, rfl, rfl, fun htime => ?_, fun htime => ?_⟩
  · have hpow : CDiskBlockIndex.powFields P e.nTime e.nNonce e.nNonce64 e.mix_hash =
        (e.nNonce, 0, 0) := if_pos htime
    exact congrArg Prod.fst hpow
  · have hpow : CDiskBlockIndex.powFields P e.nTime e.nNonce e.nNonce64 e.mix_hash =
        (0, e.nNonce64, e.mix_hash) := if_neg htime
    exact ⟨congrArg (fun p => p.2.1) hpow, congrArg (fun p => p.2.2) hpow⟩

variable {p : arith_uint256}

theorem HeadersIndexed.pprev_ne (h : HeadersIndexed H P m) (he : m.find? hash = some e)
    (hp : e.pprev = some p) : p ≠ 0 := by
  have hparent := (h hash e he).parent
  rw [hp] at hparent
  obtain ⟨prev, hprev, -⟩ := hparent
  exact (h p prev hprev).hash_ne

theorem HeadersIndexed.parent_known (h : HeadersIndexed H P m) (he : m.find? hash = some e)
    (hp : e.pprev = some p) : m.count p = true := by
  have hparent := (h hash e he).parent
  rw [hp] at hparent
  obtain ⟨prev, hprev, -⟩ := hparent
  exact count_of_find? hprev

/-! ## The entries are made -/

/-- Some of the entries of an index have been loaded: they are there; of the others there is at
most a blank entry, made for a child. -/
structure Loaded (P : HeaderParams) (m : BlockMap) (done : arith_uint256 → Prop) (m₁ : BlockMap) :
    Prop where
  found : ∀ hash e, m.find? hash = some e → done hash → m₁.find? hash = some (loadedIndex P e)
  blank : ∀ hash, ¬ done hash → m₁.find? hash = none ∨
    (m₁.find? hash = some .null ∧ m.count hash = true)
  known : ∀ hash, done hash → m.count hash = true

theorem Loaded.empty : Loaded P m (fun _ => False) ∅ :=
  ⟨fun _ _ _ h => h.elim, fun hash _ => .inl (find?_empty hash), fun _ h => h.elim⟩

variable {done : arith_uint256 → Prop}

theorem Loaded.insert (h : Loaded P m done m₁)
    (hknown : hash ≠ 0 → m.count hash = true) :
    Loaded P m done (insertBlockIndex m₁ hash) := by
  rw [insertBlockIndex]
  split
  · exact h
  · rename_i hne
    constructor
    · intro hash₁ e₁ he₁ hdone
      rw [find?_emplace]
      split
      · rename_i heq
        subst heq
        rw [h.found hash₁ e₁ he₁ hdone]
        rfl
      · exact h.found hash₁ e₁ he₁ hdone
    · intro hash₁ hdone
      rw [find?_emplace]
      split
      · rename_i heq
        subst heq
        rcases h.blank hash₁ hdone with hnone | ⟨hnull, hcount⟩
        · rw [hnone]
          exact .inr ⟨rfl, hknown hne⟩
        · rw [hnull]
          exact .inr ⟨rfl, hcount⟩
      · exact h.blank hash₁ hdone
    · exact h.known

theorem Loaded.noWork (h : Loaded P m done m₁)
    (he : m.find? hash = some e) :
    ((m₁.find? hash).getD .null).nChainWork = 0 ∧ ((m₁.find? hash).getD .null).nTimeMax = 0 := by
  by_cases hdone : done hash
  · rw [h.found hash e he hdone]
    exact ⟨rfl, rfl⟩
  · rcases h.blank hash hdone with hnone | ⟨hnull, -⟩
    · rw [hnone]
      exact ⟨rfl, rfl⟩
    · rw [hnull]
      exact ⟨rfl, rfl⟩

theorem Loaded.assign (h : Loaded P m done m₁)
    (he : m.find? hash = some e) :
    Loaded P m (fun k => done k ∨ k = hash) (m₁.assign hash (loadedIndex P e)) := by
  constructor
  · intro hash₁ e₁ he₁ hdone
    rw [find?_assign]
    split
    · rename_i heq
      subst heq
      cases he.symm.trans he₁
      rfl
    · rename_i hne
      exact h.found hash₁ e₁ he₁ (hdone.resolve_right hne)
  · intro hash₁ hdone
    rw [not_or] at hdone
    rw [find?_assign_ne hdone.2]
    exact h.blank hash₁ hdone.1
  · rintro hash₁ (hdone | rfl)
    · exact h.known hash₁ hdone
    · exact count_of_find? he

/-- **One entry is loaded.** -/
theorem loaded_loadDiskIndex (hindexed : HeadersIndexed H P m)
    (h : Loaded P m done m₁) (he : m.find? hash = some e) :
    ∃ m₂, loadDiskIndex H P m₁ ((CDiskBlockIndex.ofIndex e).stored P) = .ok m₂ ∧
      Loaded P m (fun k => done k ∨ k = hash) m₂ := by
  have hentry := hindexed hash e he
  have hhash : ((CDiskBlockIndex.ofIndex e).stored P).getBlockHash H P = hash := by
    rw [getBlockHash_stored, hentry.header]
  have hprev : ((CDiskBlockIndex.ofIndex e).stored P).hashPrev = e.pprev.getD 0 := rfl
  have hpprev : (if e.pprev.getD 0 = 0 then none else some (e.pprev.getD 0)) = e.pprev := by
    cases hp : e.pprev with
    | none => rfl
    | some p => exact if_neg (hindexed.pprev_ne he hp)
  let m₁' := insertBlockIndex (insertBlockIndex m₁ hash) (e.pprev.getD 0)
  have hinsert : Loaded P m done m₁' := by
    refine (h.insert fun _ => count_of_find? he).insert fun hne => ?_
    cases hp : e.pprev with
    | none =>
      rw [hp] at hne
      exact absurd rfl hne
    | some p => exact hindexed.parent_known he hp
  obtain ⟨hwork, htime⟩ := hinsert.noWork he
  refine ⟨m₁'.assign hash (loadedIndex P e), ?_, hinsert.assign he⟩
  rw [loadDiskIndex, hhash, hprev, hpprev]
  simp only [require_bind, bne_iff_ne]
  refine ⟨hentry.hash_ne, hentry.work, ?_⟩
  change Except.ok (m₁'.assign hash _) = Except.ok (m₁'.assign hash _)
  rw [hwork, htime]
  rfl

theorem loaded_value (hindexed : HeadersIndexed H P m)
    (h : Loaded P m done m₁) (he : m.find? hash = some e) :
    ∃ m₂, (do
        let diskindex ← demand ((CDiskBlockIndex.unserialize P).read
          ((CDiskBlockIndex.ofIndex e).serialize P)) "failed to read value"
        loadDiskIndex H P m₁ diskindex) = .ok m₂ ∧
      Loaded P m (fun k => done k ∨ k = hash) m₂ := by
  have hentry := hindexed hash e he
  have hread := (reads_diskBlockIndex (P := P) (.ofIndex e) hentry.height hentry.file).read []
  rw [List.append_nil] at hread
  obtain ⟨m₂, hload, hloaded⟩ := loaded_loadDiskIndex hindexed h he
  exact ⟨m₂, demand_bind.2 ⟨_, hread, hload⟩, hloaded⟩

theorem HeadersIndexed.hash_of_serialize (h : HeadersIndexed H P m) {hash' : arith_uint256}
    {e' : CBlockIndex} (he : m.find? hash = some e) (he' : m.find? hash' = some e')
    (heq : (CDiskBlockIndex.ofIndex e).serialize P = (CDiskBlockIndex.ofIndex e').serialize P) :
    hash = hash' := by
  have hread : ∀ {k : arith_uint256} {d : CBlockIndex}, m.find? k = some d →
      (CDiskBlockIndex.unserialize P).read ((CDiskBlockIndex.ofIndex d).serialize P) =
        some ((CDiskBlockIndex.ofIndex d).stored P) := by
    intro k d hd
    have hentry := h k d hd
    have hreads := (reads_diskBlockIndex (P := P) (.ofIndex d) hentry.height hentry.file).read []
    rw [List.append_nil] at hreads
    exact hreads
  have hstored : (CDiskBlockIndex.ofIndex e).stored P = (CDiskBlockIndex.ofIndex e').stored P := by
    have hread' := hread he
    rw [heq, hread he'] at hread'
    exact (Option.some.inj hread').symm
  calc hash = e.getBlockHeader.getHash H P := (h hash e he).header.symm
    _ = ((CDiskBlockIndex.ofIndex e).stored P).getBlockHash H P := (getBlockHash_stored e).symm
    _ = ((CDiskBlockIndex.ofIndex e').stored P).getBlockHash H P := by rw [hstored]
    _ = e'.getBlockHeader.getHash H P := getBlockHash_stored e'
    _ = hash' := (h hash' e' he').header

theorem loaded_foldlM (hindexed : HeadersIndexed H P m) :
    ∀ (values : List Bytes) (done : arith_uint256 → Prop) (m₁ : BlockMap),
      (∀ v ∈ values, ∃ hash e, m.find? hash = some e ∧
        v = (CDiskBlockIndex.ofIndex e).serialize P) →
      Loaded P m done m₁ →
      ∃ m₂ done', values.foldlM (fun mapBlockIndex value => do
          let diskindex ← demand ((CDiskBlockIndex.unserialize P).read value)
            "failed to read value"
          loadDiskIndex H P mapBlockIndex diskindex) m₁ = .ok m₂ ∧ Loaded P m done' m₂ ∧
        (∀ k, done k → done' k) ∧
        ∀ hash e, m.find? hash = some e → (CDiskBlockIndex.ofIndex e).serialize P ∈ values →
          done' hash := by
  intro values
  induction values with
  | nil =>
    intro done m₁ _ h
    exact ⟨m₁, done, rfl, h, fun _ => id, fun _ _ _ hv => absurd hv List.not_mem_nil⟩
  | cons v values ih =>
    intro done m₁ hvalues h
    rw [List.forall_mem_cons] at hvalues
    obtain ⟨⟨hash, e, he, rfl⟩, hrest⟩ := hvalues
    obtain ⟨m₂, hload, hloaded⟩ := loaded_value hindexed h he
    obtain ⟨m₃, done', hfold, hloaded', hkeep, hdone⟩ := ih _ m₂ hrest hloaded
    refine ⟨m₃, done', ?_, hloaded', fun k hk => hkeep k (.inl hk), ?_⟩
    · rw [List.foldlM_cons]
      exact bind_ok.2 ⟨m₂, hload, hfold⟩
    · intro hash' e' he' hmem
      rcases List.mem_cons.1 hmem with heq | hmem
      · exact hkeep hash' (.inr (hindexed.hash_of_serialize he' he heq))
      · exact hdone hash' e' he' hmem

/-- **All entries are loaded**, in whatever order they come. -/
theorem loadBlockIndexGuts_written (hindexed : HeadersIndexed H P m) {values : List Bytes}
    (hvalues : values.Perm (writeBlockIndex P m)) :
    ∃ m₁, loadBlockIndexGuts H P values = .ok m₁ ∧
      ∀ hash, m₁.find? hash = (m.find? hash).map (loadedIndex P) := by
  have hwritten : ∀ v ∈ values, ∃ hash e, m.find? hash = some e ∧
      v = (CDiskBlockIndex.ofIndex e).serialize P := by
    intro v hv
    obtain ⟨⟨hash, e⟩, hmem, rfl⟩ := List.mem_map.1 (hvalues.mem_iff.1 hv)
    exact ⟨hash, e, mem_entries.1 hmem, rfl⟩
  obtain ⟨m₁, done, hfold, hloaded, -, hdone⟩ :=
    loaded_foldlM hindexed values _ ∅ hwritten Loaded.empty
  have hall : ∀ hash e, m.find? hash = some e → done hash := by
    intro hash e he
    refine hdone hash e he (hvalues.mem_iff.2 ?_)
    exact List.mem_map.2 ⟨(hash, e), mem_entries.2 he, rfl⟩
  refine ⟨m₁, hfold, fun hash => ?_⟩
  cases he : m.find? hash with
  | some e => exact hloaded.found hash e he (hall hash e he)
  | none =>
    have hnot : ¬ done hash := by
      intro hd
      have hcount := hloaded.known hash hd
      rw [count_eq_false.2 he] at hcount
      cases hcount
    rcases hloaded.blank hash hnot with hnone | ⟨-, hcount⟩
    · exact hnone
    · rw [count_eq_false.2 he] at hcount
      cases hcount

/-! ## The work is computed -/

/-- An entry that agrees with another but perhaps for the work. -/
def SameButWork (P : HeaderParams) (e e₂ : CBlockIndex) : Prop :=
  SameEntry P e { e₂ with nChainWork := e.nChainWork }

/-- The entries of an index, with the work of some of them. -/
structure Worked (P : HeaderParams) (m : BlockMap) (done : arith_uint256 → Prop) (m₂ : BlockMap) :
    Prop where
  found : ∀ hash e, m.find? hash = some e → ∃ e₂, m₂.find? hash = some e₂ ∧ SameButWork P e e₂ ∧
    (done hash → e₂.nChainWork = e.nChainWork)
  none : ∀ hash, m.find? hash = none → m₂.find? hash = none

theorem HeadersIndexed.work_eq (hindexed : HeadersIndexed H P m)
    (h : Worked P m done m₂) (he : m.find? hash = some e)
    (hparent : ∀ p, e.pprev = some p → done p) :
    ((e.pprev.bind m₂.find?).elim 0 CBlockIndex.nChainWork) + getBlockProof e.nBits =
      e.nChainWork := by
  have hentry := (hindexed hash e he).parent
  cases hp : e.pprev with
  | none =>
    rw [hp] at hentry
    rw [hentry.2]
    exact BitVec.zero_add _
  | some p =>
    rw [hp] at hentry
    obtain ⟨prev, hprev, -, hwork⟩ := hentry
    obtain ⟨prev₂, hprev₂, -, hdone⟩ := h.found p prev hprev
    rw [Option.bind_some, hprev₂, hwork, ← hdone (hparent p hp)]
    rfl

/-- **The work of one entry is computed.** -/
theorem worked_computeChainWork (hindexed : HeadersIndexed H P m)
    (h : Worked P m done m₂)
    (hparent : ∀ e, m.find? hash = some e → ∀ p, e.pprev = some p → done p) :
    Worked P m (fun k => done k ∨ k = hash) (computeChainWork m₂ hash) := by
  rw [computeChainWork]
  cases he : m.find? hash with
  | none =>
    rw [h.none hash he]
    refine ⟨fun hash₁ e₁ he₁ => ?_, h.none⟩
    obtain ⟨e₂, he₂, hsame, hdone⟩ := h.found hash₁ e₁ he₁
    refine ⟨e₂, he₂, hsame, ?_⟩
    rintro (hd | rfl)
    · exact hdone hd
    · rw [he] at he₁
      cases he₁
  | some e =>
    obtain ⟨e₂, he₂, hsame, -⟩ := h.found hash e he
    have hpprev : e₂.pprev = e.pprev := hsame.pprev
    have hbits : e₂.nBits = e.nBits := hsame.nBits
    have hwork := hindexed.work_eq h he (hparent e he)
    rw [he₂]
    constructor
    · intro hash₁ e₁ he₁
      rw [find?_assign]
      split
      · rename_i heq
        subst heq
        cases he.symm.trans he₁
        refine ⟨_, rfl, ?_, fun _ => ?_⟩
        · exact ⟨hpprev, hsame.nHeight, rfl, hsame.nVersion, hsame.hashMerkleRoot, hsame.nTime,
            hbits, hsame.x16r, hsame.kawpow⟩
        · dsimp only
          rw [hpprev, hbits]
          exact hwork
      · rename_i hne
        obtain ⟨e₃, he₃, hsame₃, hdone⟩ := h.found hash₁ e₁ he₁
        exact ⟨e₃, he₃, hsame₃, fun hd => hdone (hd.resolve_right hne)⟩
    · intro hash₁ hnone
      have hne : hash₁ ≠ hash := by
        rintro rfl
        rw [he] at hnone
        cases hnone
      rw [find?_assign_ne hne]
      exact h.none hash₁ hnone

structure SortedByHeight (m : BlockMap) (hashes : List arith_uint256) : Prop where
  mem : ∀ hash e, m.find? hash = some e → hash ∈ hashes
  sorted : hashes.Pairwise fun a b => ∀ ea eb, m.find? a = some ea → m.find? b = some eb →
    ea.nHeight ≤ eb.nHeight

theorem SortedByHeight.parent_mem {pre post : List arith_uint256} (hindexed : HeadersIndexed H P m)
    (h : SortedByHeight m (pre ++ hash :: post)) (he : m.find? hash = some e)
    (hp : e.pprev = some p) : p ∈ pre := by
  have hparent := (hindexed hash e he).parent
  rw [hp] at hparent
  obtain ⟨prev, hprev, hheight, -⟩ := hparent
  rcases List.mem_append.1 (h.mem p prev hprev) with hpre | hrest
  · exact hpre
  · rcases List.mem_cons.1 hrest with rfl | hpost
    · cases he.symm.trans hprev
      omega
    · have hsorted := (List.pairwise_append.1 h.sorted).2.1
      have hle := (List.pairwise_cons.1 hsorted).1 p hpost e prev he hprev
      omega

theorem worked_foldl (hindexed : HeadersIndexed H P m) {rest : List arith_uint256} :
    ∀ {pre : List arith_uint256} {m₂ : BlockMap}, SortedByHeight m (pre ++ rest) →
      Worked P m (· ∈ pre) m₂ → Worked P m (· ∈ pre ++ rest) (rest.foldl computeChainWork m₂) := by
  induction rest with
  | nil =>
    intro pre m₂ _ h
    rw [List.append_nil]
    exact h
  | cons hash rest ih =>
    intro pre m₂ hsorted h
    have hround := worked_computeChainWork hindexed h fun e he p hp =>
      hsorted.parent_mem hindexed he hp
    have hdone : (fun k => k ∈ pre ∨ k = hash) = (· ∈ pre ++ [hash]) := by
      funext k
      rw [List.mem_append, List.mem_singleton]
    rw [hdone] at hround
    have hsplit : pre ++ hash :: rest = (pre ++ [hash]) ++ rest := by
      rw [List.append_assoc, List.singleton_append]
    rw [hsplit] at hsorted ⊢
    exact ih hsorted hround

theorem sortedByHeight_loaded (h : ∀ hash, m₁.find? hash = (m.find? hash).map (loadedIndex P)) :
    SortedByHeight m (sortedByHeight m₁) := by
  have hperm := List.mergeSort_perm m₁.entries fun a b => decide (a.2.nHeight ≤ b.2.nHeight)
  have hheight : ∀ c ∈ m₁.entries, ∀ e, m.find? c.1 = some e → e.nHeight = c.2.nHeight := by
    intro c hc e he
    have hfind := mem_entries.1 (show (c.1, c.2) ∈ m₁.entries from hc)
    rw [h, he] at hfind
    rw [← Option.some.inj hfind]
    rfl
  constructor
  · intro hash e he
    have hmem : (hash, loadedIndex P e) ∈ m₁.entries := by
      rw [mem_entries, h, he]
      rfl
    exact List.mem_map.2 ⟨_, hperm.mem_iff.2 hmem, rfl⟩
  · have hsorted := @List.pairwise_mergeSort _
      (fun a b : arith_uint256 × CBlockIndex => decide (a.2.nHeight ≤ b.2.nHeight))
      (fun a b c hab hbc => by
        rw [decide_eq_true_eq] at hab hbc ⊢
        exact Nat.le_trans hab hbc)
      (fun a b => by
        rw [Bool.or_eq_true, decide_eq_true_eq, decide_eq_true_eq]
        exact Nat.le_total _ _) m₁.entries
    rw [sortedByHeight, List.pairwise_map]
    refine hsorted.imp_of_mem fun {a b} ha hb hle ea eb hea heb => ?_
    rw [hheight a (hperm.mem_iff.1 ha) ea hea, hheight b (hperm.mem_iff.1 hb) eb heb]
    exact of_decide_eq_true hle

/-- Two indexes with the same entries, as far as parent, height, work and proof of work go. -/
structure SameIndex (P : HeaderParams) (m m' : BlockMap) : Prop where
  found : ∀ hash e, m.find? hash = some e → ∃ e', m'.find? hash = some e' ∧ SameEntry P e e'
  none : ∀ hash, m.find? hash = none → m'.find? hash = none

/-- **An index whose entries are as they should be is loaded as it was written.** -/
theorem loadBlockIndexDB_written (hindexed : HeadersIndexed H P m) {values : List Bytes}
    (hvalues : values.Perm (writeBlockIndex P m)) :
    ∃ m', loadBlockIndexDB H P values = .ok m' ∧ SameIndex P m m' := by
  obtain ⟨m₁, hload, hfind⟩ := loadBlockIndexGuts_written hindexed hvalues
  have hsorted := sortedByHeight_loaded hfind
  have hstart : Worked P m (· ∈ []) m₁ := by
    constructor
    · intro hash e he
      refine ⟨loadedIndex P e, ?_, sameEntry_loadedIndex e, fun hd => absurd hd List.not_mem_nil⟩
      rw [hfind, he]
      rfl
    · intro hash he
      rw [hfind, he]
      rfl
  have hworked := @worked_foldl _ _ _ hindexed _ [] _ hsorted hstart
  refine ⟨_, bind_ok.2 ⟨m₁, hload, rfl⟩, fun hash e he => ?_, hworked.none⟩
  obtain ⟨e', he', hsame, hwork⟩ := hworked.found hash e he
  refine ⟨e', he', ?_⟩
  rw [SameButWork, ← hwork (hsorted.mem hash e he)] at hsame
  exact hsame

end Loading

section Runs

variable {H : HeaderHashes} {P : HeaderParams} {m : BlockMap}

theorem count_genesisIndex {genesis : CBlockHeader} (h : IsGenesis H P genesis) :
    (genesisIndex H P genesis).count P.hashGenesisBlock = true := by
  rw [genesisIndex, addToBlockIndex_of_new (find?_empty _), count_assign, h.hash,
    decide_eq_true rfl, Bool.true_or]

/-- **Every entry gives out the header it came from, and the index is loaded as it was written**,
when the genesis block has its work and the headers state their heights. -/
theorem headerIndex_roundTrip {genesis : CBlockHeader} (hgenesis : IsGenesis H P genesis)
    {events : List HeaderEvent}
    (hexec : (headerIndex H P).exec (genesisIndex H P genesis) events = some m)
    (hstates : (headerIndex H P).Along (fun m event => event.StatesHeight H P m)
      (genesisIndex H P genesis) events) :
    (∀ hash e, m.find? hash = some e → e.getBlockHeader.getHash H P = hash) ∧
    ∀ values : List Bytes, values.Perm (writeBlockIndex P m) →
      ∃ m', loadBlockIndexDB H P values = .ok m' ∧ SameIndex P m m' := by
  have hinv : HeadersIndexed H P m ∧ m.count P.hashGenesisBlock = true := by
    refine Machine.exec_invariant (P := fun m event => event.StatesHeight H P m)
      (I := fun m => HeadersIndexed H P m ∧ m.count P.hashGenesisBlock = true) ?_
      ⟨indexed_genesis hgenesis, count_genesisIndex hgenesis⟩ hstates hexec
    intro m event m' hI hP hstep
    exact step_indexed hI.1 hI.2 hP hstep
  refine ⟨fun hash e he => (hinv.1 hash e he).header, fun values hvalues => ?_⟩
  exact loadBlockIndexDB_written hinv.1 hvalues

end Runs

/-! ## A header that states another height -/

/-- Hash functions for which a header hash is the sum of the bytes, and which ProgPoW keeps. -/
def sumHashes : HeaderHashes :=
  ⟨fun _ _ => 1, fun _ _ => 1, fun data => BitVec.ofNat 256 (data.map UInt8.toNat).sum,
    fun _ _ _ => 7, fun hash _ _ => hash⟩

/-- The parameters of the main chain with a genesis block that has its work. -/
def sumParams : HeaderParams :=
  { mainHeaderParams with hashGenesisBlock := 1, mapCheckpoints := [] }

def sumGenesis : CBlockHeader where
  nVersion := 4
  hashPrevBlock := 0
  hashMerkleRoot := 9
  nTime := 1718830000
  nBits := 0x1e00ffff
  nNonce := 0
  nHeight := 0
  nNonce64 := 0
  mix_hash := 0

def sumHeader (nHeight : UInt32) : CBlockHeader :=
  { sampleHeader nHeight 7 with hashPrevBlock := 1 }

theorem isGenesis_sumGenesis : IsGenesis sumHashes sumParams sumGenesis :=
  ⟨by decide +kernel, by decide +kernel, rfl, rfl, by decide +kernel⟩

/-- A header that states height 1 is given out and loaded as it came. -/
theorem sumHeader_roundTrip : ∃ m, (headerIndex sumHashes sumParams).exec
    (genesisIndex sumHashes sumParams sumGenesis)
    [.header sampleHeaderContext (sumHeader 1)] = some m ∧
    (∀ hash e, m.find? hash = some e →
      e.getBlockHeader.getHash sumHashes sumParams = hash) ∧
    ∀ values : List Bytes, values.Perm (writeBlockIndex sumParams m) →
      ∃ m', loadBlockIndexDB sumHashes sumParams values = .ok m' ∧ SameIndex sumParams m m' := by
  refine ⟨_, rfl, @headerIndex_roundTrip _ _ _ _ isGenesis_sumGenesis
    [.header sampleHeaderContext (sumHeader 1)] rfl ⟨?_, fun _ _ => trivial⟩⟩
  intro pindexPrev hpasses
  have hprev : ((genesisIndex sumHashes sumParams sumGenesis).find?
      (sumHeader 1).hashPrevBlock).map CBlockIndex.nHeight = some 0 := by decide +kernel
  rw [hpasses.prev] at hprev
  have hheight : pindexPrev.nHeight = 0 := Option.some.inj hprev
  rw [hheight]
  exact ⟨fun _ => rfl, by decide +kernel, by decide⟩

/-- **A header that states height 0 is accepted at height 1, and its entry gives out another
header.** -/
theorem misstatedHeight_otherHash : ∃ m hash e,
    IsGenesis sumHashes sumParams sumGenesis ∧
    (headerIndex sumHashes sumParams).exec (genesisIndex sumHashes sumParams sumGenesis)
      [.header sampleHeaderContext (sumHeader 0)] = some m ∧
    m.find? hash = some e ∧
    e.getBlockHeader.getHash sumHashes sumParams ≠ hash := by
  let m := (acceptBlockHeader sumHashes sumParams sampleHeaderContext
    (genesisIndex sumHashes sumParams sumGenesis) (sumHeader 0)).1
  let hash := (sumHeader 0).getHash sumHashes sumParams
  have hother : (m.find? hash).all (fun e =>
      e.getBlockHeader.getHash sumHashes sumParams != hash) = true ∧ m.count hash = true := by
    decide +kernel
  obtain ⟨e, he⟩ := count_eq_true.1 hother.2
  have hne := hother.1
  rw [he] at hne
  exact ⟨m, hash, e, isGenesis_sumGenesis, rfl, he, bne_iff_ne.1 hne⟩

/-- The genesis block of the main chain does not have the work that loading asks for. -/
example : checkProofOfWork mainHeaderParams mainHeaderParams.hashGenesisBlock
    mainGenesisIndex.nBits = false := by decide +kernel

end UnemployCoin
