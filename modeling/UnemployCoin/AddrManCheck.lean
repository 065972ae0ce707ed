import UnemployCoin.AddrManOperations
/-!
# The consistency check of the address manager

`check_spec`: between two operations `Check_` finds nothing.  Its loops over the tables cross off,
one cell after the other, the ids that the entries have led it to expect; the tables hold each of
them exactly as many times.
-/

namespace UnemployCoin

open Buckets

variable {hash : Bytes → UInt64}

namespace CAddrMan

variable {s : CAddrMan} {i : Int32} {x : CAddrInfo}

theorem entries_perm (s : CAddrMan) : s.entries.Perm s.mapInfo.entries :=
  List.mergeSort_perm _ _

theorem mem_entries : (i, x) ∈ s.entries ↔ s.mapInfo.find? i = some x := by
  rw [(entries_perm s).mem_iff, StdMap.mem_entries]

theorem entries_keys_nodup (s : CAddrMan) : (s.entries.map Prod.fst).Nodup :=
  ((entries_perm s).map Prod.fst).nodup_iff.2 s.mapInfo.entries_nodup

theorem sum_entries {ρ : Type*} [AddCommMonoid ρ] (w : Int32 → CAddrInfo → ρ) :
    (s.entries.map fun e => w e.1 e.2).sum = s.mapInfo.sum w :=
  ((entries_perm s).map _).sum_eq

/-! ## What the entries lead to expect -/

def triedIds (l : List (Int32 × CAddrInfo)) : List Int32 :=
  (l.filter fun e => e.2.fInTried).map Prod.fst

def newIds (l : List (Int32 × CAddrInfo)) : List Int32 :=
  (l.filter fun e => !e.2.fInTried).map Prod.fst

def newRefs (i : Int32) (x : CAddrInfo) : Multiset Int32 :=
  if x.fInTried then 0 else Multiset.replicate x.nRefCount.toNat i

theorem triedIds_nodup (s : CAddrMan) : (triedIds s.entries).Nodup :=
  (entries_keys_nodup s).sublist ((List.filter_sublist).map _)

theorem newIds_nodup (s : CAddrMan) : (newIds s.entries).Nodup :=
  (entries_keys_nodup s).sublist ((List.filter_sublist).map _)

theorem mem_triedIds : i ∈ triedIds s.entries ↔
    ∃ x, s.mapInfo.find? i = some x ∧ x.fInTried = true := by
  unfold triedIds
  simp only [List.mem_map, List.mem_filter, Prod.exists, mem_entries]
  constructor
  · rintro ⟨j, y, ⟨hy, ht⟩, rfl⟩
    exact ⟨y, hy, ht⟩
  · rintro ⟨y, hy, ht⟩
    exact ⟨i, y, ⟨hy, ht⟩, rfl⟩

theorem mem_newIds : i ∈ newIds s.entries ↔
    ∃ x, s.mapInfo.find? i = some x ∧ x.fInTried = false := by
  unfold newIds
  simp only [List.mem_map, List.mem_filter, Prod.exists, mem_entries, Bool.not_eq_true']
  constructor
  · rintro ⟨j, y, ⟨hy, ht⟩, rfl⟩
    exact ⟨y, hy, ht⟩
  · rintro ⟨y, hy, ht⟩
    exact ⟨i, y, ⟨hy, ht⟩, rfl⟩

theorem triedIds_cons (e : Int32 × CAddrInfo) (l : List (Int32 × CAddrInfo)) :
    triedIds (e :: l) = if e.2.fInTried then e.1 :: triedIds l else triedIds l := by
  unfold triedIds
  cases ht : e.2.fInTried <;> simp [ht]

theorem newIds_cons (e : Int32 × CAddrInfo) (l : List (Int32 × CAddrInfo)) :
    newIds (e :: l) = if e.2.fInTried then newIds l else e.1 :: newIds l := by
  unfold newIds
  cases ht : e.2.fInTried <;> simp [ht]

theorem length_triedIds (l : List (Int32 × CAddrInfo)) :
    ((triedIds l).length : ℤ) = (l.map fun e => triedWeight e.1 e.2).sum := by
  induction l with
  | nil => rfl
  | cons e l ih =>
    rw [List.map_cons, List.sum_cons, ← ih, triedIds_cons]
    unfold triedWeight
    split
    · rw [List.length_cons]
      omega
    · rw [zero_add]

theorem length_newIds (l : List (Int32 × CAddrInfo)) :
    ((newIds l).length : ℤ) = (l.map fun e => newWeight e.1 e.2).sum := by
  induction l with
  | nil => rfl
  | cons e l ih =>
    rw [List.map_cons, List.sum_cons, ← ih, newIds_cons]
    unfold newWeight
    split
    · rw [zero_add]
    · rw [List.length_cons]
      omega

theorem length_split (l : List (Int32 × CAddrInfo)) :
    l.length = (triedIds l).length + (newIds l).length := by
  induction l with
  | nil => rfl
  | cons e l ih =>
    rw [triedIds_cons, newIds_cons, List.length_cons, ih]
    split
    · rw [List.length_cons]
      omega
    · rw [List.length_cons]
      omega

theorem length_tried (h : Sound hash s) : ((triedIds s.entries).length : ℤ) = s.nTried := by
  rw [length_triedIds, sum_entries]
  have := h.counted.tried
  omega

theorem length_new (h : Sound hash s) : ((newIds s.entries).length : ℤ) = s.nNew := by
  rw [length_newIds, sum_entries]
  have := h.counted.new
  omega

theorem length_vRandom (h : Sound hash s) : s.vRandom.length = s.entries.length := by
  have hperm : s.vRandom.Perm (s.entries.map Prod.fst) := by
    apply (List.perm_ext_iff_of_nodup h.indexed.random.nodup (entries_keys_nodup s)).2
    intro i
    rw [h.indexed.random.mem_iff, List.mem_map]
    constructor
    · rintro ⟨z, hz⟩
      obtain ⟨x, hx, -⟩ := Option.map_eq_some_iff.1 hz
      exact ⟨(i, x), mem_entries.2 hx, rfl⟩
    · rintro ⟨⟨j, x⟩, hmem, rfl⟩
      exact ⟨x.nRandomPos, by rw [mem_entries.1 hmem]; rfl⟩
  rw [hperm.length_eq, List.length_map]

/-- **No entry fails**, and each adds what it leads to expect. -/
theorem checkEntry_spec (h : Sound hash s) (hx : s.mapInfo.find? i = some x)
    (setTried : Finset Int32) (mapNew : Multiset Int32) :
    s.checkEntry i x setTried mapNew =
      .ok (if x.fInTried then insert i setTried else setTried, mapNew + newRefs i x) := by
  have hent := h.tabled.entry i x hx
  have haddr := h.indexed.addr_of_entry hx
  obtain ⟨k, hpos, hk⟩ := h.indexed.position hx
  have hlen := (List.getElem?_eq_some_iff.1 hk).1
  have hnonneg := h.nRefCount_nonneg hx
  have hmost := hent.most
  have hindex : ¬ (x.nRandomPos < 0 ∨ x.nRandomPos ≥ s.vRandom.length ∨
      s.vRandom[x.nRandomPos.toNat]? ≠ some i) := by
    rw [hpos]
    rintro (hneg | hbig | hne)
    · omega
    · omega
    · exact hne hk
  -- What comes after the cases of the two tables is the same for both.
  have hrest : ∀ sets : Finset Int32 × Multiset Int32,
      (if (s.mapAddr.find? x.toCNetAddr).getD 0 ≠ i then (throw (-5) : Except ℤ _)
        else if x.nRandomPos < 0 ∨ x.nRandomPos ≥ s.vRandom.length ∨
          s.vRandom[x.nRandomPos.toNat]? ≠ some i then throw (-14)
        else if x.nLastTry < 0 then throw (-6)
        else if x.nLastSuccess < 0 then throw (-8)
        else pure sets) = .ok sets := by
    intro sets
    rw [haddr, Option.getD_some, if_neg (not_not.2 rfl), if_neg hindex,
      if_neg (Int.not_lt.2 hent.nLastTry), if_neg (Int.not_lt.2 hent.nLastSuccess)]
    rfl
  unfold checkEntry newRefs
  cases ht : x.fInTried with
  | true =>
    simp only [if_true, if_neg (hent.nLastSuccess_ne ht), if_neg (not_not.2 (hent.unreferenced ht)),
      add_zero]
    exact hrest _
  | false =>
    have hne : x.nRefCount ≠ 0 := fun href => Set.notMem_empty i (h.limbo hx ht href)
    have hrange : ¬ (x.nRefCount < 0 ∨ x.nRefCount > ADDRMAN_NEW_BUCKETS_PER_ADDRESS) := by
      omega
    simp only [Bool.false_eq_true, if_false, if_neg hrange, if_neg hne]
    exact hrest _

theorem foldlM_checkEntry (h : Sound hash s) {l : List (Int32 × CAddrInfo)}
    (hl : ∀ e ∈ l, s.mapInfo.find? e.1 = some e.2) (sets : Finset Int32 × Multiset Int32) :
    l.foldlM (fun sets e => s.checkEntry e.1 e.2 sets.1 sets.2) sets =
      .ok (sets.1 ∪ (triedIds l).toFinset,
        sets.2 + (l.map fun e => newRefs e.1 e.2).sum) := by
  induction l generalizing sets with
  | nil => simp [triedIds, pure, Except.pure]
  | cons e l ih =>
    rw [List.forall_mem_cons] at hl
    rw [List.foldlM_cons, checkEntry_spec h hl.1]
    show l.foldlM _ (_, _) = _
    rw [ih hl.2, List.map_cons, List.sum_cons, add_assoc, triedIds_cons]
    dsimp only
    split
    · rw [List.toFinset_cons, Finset.insert_union, Finset.union_insert]
    · rfl

/-! ## The loops over the tables -/

/-- **The tried table holds each tried id once.** -/
theorem triedIds_eq_occupants (h : Sound hash s) :
    (triedIds s.entries : Multiset Int32) = occupants s.vvTried (-1) (cells _ _) := by
  rw [Multiset.coe_eq_coe, List.perm_iff_count]
  intro i
  rw [(triedIds_nodup s).count]
  by_cases hmem : i ∈ triedIds s.entries
  · obtain ⟨x, hx, ht⟩ := mem_triedIds.1 hmem
    have hi := h.indexed.ne_marker hx
    rw [if_pos hmem]
    symm
    apply count_occupants_eq_one hi
    intro b p
    constructor
    · intro hv
      obtain ⟨y, hy, -, hb, hp⟩ := h.tabled.triedCell b p i hv hi
      rw [hx] at hy
      cases hy
      exact ⟨hb.symm, hp.symm⟩
    · rintro ⟨rfl, rfl⟩
      exact (h.tabled.entry i x hx).home ht
  · rw [if_neg hmem]
    symm
    by_cases hi : i = -1
    · rw [hi]
      exact count_occupants_marker _ _ _
    · apply count_occupants_eq_zero hi
      intro b p hv
      obtain ⟨x, hx, ht, -⟩ := h.tabled.triedCell b p i hv hi
      exact hmem (mem_triedIds.2 ⟨x, hx, ht⟩)

theorem count_newRefs (m : StdMap Int32 CAddrInfo) (i : Int32) :
    (m.sum newRefs).count i = (m.find? i).elim 0 fun x => (newRefs i x).count i := by
  have hhom : (m.sum newRefs).count i = m.sum fun j y => (newRefs j y).count i := by
    unfold StdMap.sum
    rw [← Multiset.coe_countAddMonoidHom, map_list_sum, List.map_map]
    rfl
  rw [hhom]
  apply StdMap.sum_eq_elim
  intro j y hj
  unfold newRefs
  split
  · exact Multiset.count_zero i
  · rw [Multiset.count_replicate, if_neg hj]

/-- **The new table holds each id as many times as it has references.** -/
theorem newRefs_eq_occupants (h : Sound hash s) :
    s.mapInfo.sum newRefs = (occupants s.vvNew (-1) (cells _ _) : Multiset Int32) := by
  ext i
  rw [count_newRefs, Multiset.coe_count]
  cases hx : s.mapInfo.find? i with
  | none =>
    symm
    by_cases hi : i = -1
    · rw [hi]
      exact count_occupants_marker _ _ _
    · exact count_occupants_eq_zero hi (h.tabled.refs_of_fresh hx hi)
  | some x =>
    have hent := h.tabled.entry i x hx
    have hi := h.indexed.ne_marker hx
    have hslot : ∀ b p, s.vvNew b p = i → x.slot hash s.nKey b = p := by
      intro b p hv
      obtain ⟨y, hy, hslot⟩ := h.tabled.newCell b p i hv hi
      rw [hx] at hy
      cases hy
      exact hslot
    have hrefs := hent.refs
    rw [Option.elim_some, count_occupants_eq_refs hi hslot]
    unfold newRefs
    split
    · rename_i ht
      rw [hent.unreferenced ht] at hrefs
      rw [Multiset.count_zero]
      omega
    · rw [Multiset.count_replicate, if_pos rfl]
      omega

theorem toFinset_newRefs (h : Sound hash s) :
    (s.mapInfo.sum newRefs).toFinset = (newIds s.entries).toFinset := by
  ext i
  rw [Multiset.mem_toFinset, List.mem_toFinset, mem_newIds, ← Multiset.count_pos, count_newRefs]
  constructor
  · intro hpos
    cases hx : s.mapInfo.find? i with
    | none =>
      rw [hx] at hpos
      exact absurd hpos (Nat.lt_irrefl 0)
    | some x =>
      rw [hx, Option.elim_some] at hpos
      refine ⟨x, rfl, ?_⟩
      by_contra ht
      unfold newRefs at hpos
      rw [if_pos (Bool.not_eq_false _ ▸ ht), Multiset.count_zero] at hpos
      exact absurd hpos (Nat.lt_irrefl 0)
  · rintro ⟨x, hx, ht⟩
    have hne : x.nRefCount ≠ 0 := fun href => Set.notMem_empty i (h.limbo hx ht href)
    have hnonneg := h.nRefCount_nonneg hx
    unfold newRefs
    rw [hx, Option.elim_some, ht, if_neg Bool.false_ne_true, Multiset.count_replicate, if_pos rfl]
    omega

theorem checkTried_spec (h : Sound hash s)
    {l : List (Fin ADDRMAN_TRIED_BUCKET_COUNT × Fin ADDRMAN_BUCKET_SIZE)} {setTried : Finset Int32}
    (hset : setTried.val = (occupants s.vvTried (-1) l : Multiset Int32)) :
    s.checkTried hash l setTried = .ok ∅ := by
  induction l generalizing setTried with
  | nil =>
    have hempty : setTried = ∅ := Finset.val_eq_zero.1 hset
    rw [hempty]
    rfl
  | cons bp l ih =>
    obtain ⟨b, p⟩ := bp
    rw [occupants_cons] at hset
    unfold checkTried
    dsimp only
    by_cases hv : s.vvTried b p = -1
    · rw [if_pos hv] at hset ⊢
      exact ih hset
    · rw [if_neg hv] at hset ⊢
      have hmem : s.vvTried b p ∈ setTried := by
        rw [← Finset.mem_val, hset]
        exact List.mem_cons_self
      obtain ⟨x, hx, -, hb, hp⟩ := h.tabled.triedCell b p _ rfl hv
      unfold CAddrInfo.home at hp
      rw [hb] at hp
      rw [if_neg (not_not.2 hmem), hx, Option.getD_some, if_neg (not_not.2 hb),
        if_neg (not_not.2 hp)]
      apply ih
      rw [Finset.erase_val, hset, Multiset.coe_erase, List.erase_cons_head]

theorem checkNew_spec (h : Sound hash s)
    {l : List (Fin ADDRMAN_NEW_BUCKET_COUNT × Fin ADDRMAN_BUCKET_SIZE)} {mapNew : Multiset Int32}
    (hset : mapNew = (occupants s.vvNew (-1) l : Multiset Int32)) :
    s.checkNew hash l mapNew = .ok 0 := by
  induction l generalizing mapNew with
  | nil =>
    rw [hset]
    rfl
  | cons bp l ih =>
    obtain ⟨b, p⟩ := bp
    rw [occupants_cons] at hset
    unfold checkNew
    dsimp only
    by_cases hv : s.vvNew b p = -1
    · rw [if_pos hv] at hset ⊢
      exact ih hset
    · rw [if_neg hv] at hset ⊢
      have hmem : s.vvNew b p ∈ mapNew := by
        rw [hset]
        exact List.mem_cons_self
      obtain ⟨x, hx, hp⟩ := h.tabled.newCell b p _ rfl hv
      unfold CAddrInfo.slot at hp
      rw [if_neg (not_not.2 hmem), hx, Option.getD_some, if_neg (not_not.2 hp)]
      apply ih
      rw [hset, Multiset.coe_erase, List.erase_cons_head]

/-- **`Check_` finds nothing** between two operations. -/
theorem check_spec (h : Sound hash s) (hkey : s.nKey ≠ 0) : s.check_ hash = 0 := by
  have hsize : (s.vRandom.length : ℤ) = s.nTried + s.nNew := by
    have hsplit := length_split s.entries
    have ht := length_tried h
    have hn := length_new h
    rw [length_vRandom h]
    omega
  have hentries := foldlM_checkEntry h (fun e he => mem_entries.1 he) (∅, 0)
  rw [Finset.empty_union, zero_add, sum_entries, newRefs_eq_occupants h] at hentries
  have htried : ((triedIds s.entries).toFinset.card : ℤ) = s.nTried := by
    rw [List.toFinset_card_of_nodup (triedIds_nodup s), length_tried h]
  have hnew : ((Multiset.toFinset (occupants s.vvNew (-1) (cells _ _) : Multiset Int32)).card : ℤ) =
      s.nNew := by
    rw [← newRefs_eq_occupants h, toFinset_newRefs h,
      List.toFinset_card_of_nodup (newIds_nodup s), length_new h]
  have hval : (triedIds s.entries).toFinset.val =
      (occupants s.vvTried (-1) (cells _ _) : Multiset Int32) := by
    rw [List.toFinset_val, (triedIds_nodup s).dedup, triedIds_eq_occupants h]
  have hchecks : s.checks hash = .ok () := by
    unfold checks
    rw [if_neg (not_not.2 hsize), hentries]
    simp only [bind, Except.bind, pure, Except.pure, checkTried_spec h hval, checkNew_spec h rfl,
      if_neg (not_not.2 htried), if_neg (not_not.2 hnew), if_neg hkey, Finset.card_empty,
      Multiset.toFinset_zero, ne_eq, not_true_eq_false, if_false]
  unfold check_
  rw [hchecks]

end CAddrMan

end UnemployCoin
