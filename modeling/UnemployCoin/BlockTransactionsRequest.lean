import UnemployCoin.TransactionFormat
/-!
# The indexes of `getblocktxn`

`BlockTransactionsRequest::SerializationOp` (`blockencodings.h`).  An index is coded as its distance
from the one after the index before it, and the offset of 16 bits is **not** checked when it goes
from an index to the next one.
-/

namespace UnemployCoin

namespace Wire

structure BlockTransactionsRequest where
  blockhash : arith_uint256
  indexes : List UInt16
  deriving DecidableEq

def readIndex : CDataStream UInt16 := do
  let index ← CDataStream.readCompactSize
  -- index overflowed 16 bits
  if index > 0xffff then CDataStream.throw
  else return UInt16.ofNat index

def indexFormat : Format UInt8 UInt16 where
  read := readIndex
  write index := writeCompactSize index.toNat
  valid _ := True
  reads := by
    intro index rest _
    have hlt := index.toNat_lt
    have hmax : 2 ^ 16 ≤ CDataStream.MAX_SIZE := by decide
    have hread := reads_compactSize (Nat.le_trans hlt.le hmax) rest
    change (CDataStream.readCompactSize (writeCompactSize index.toNat ++ rest)).bind _ = _
    rw [hread, Option.bind_some]
    dsimp only
    rw [if_neg (by omega), UInt16.ofNat_toNat]
    rfl
  only := by
    intro s index rest h
    obtain ⟨⟨n, t⟩, hread, hcheck⟩ := Option.bind_eq_some_iff.1 h
    obtain ⟨-, hs⟩ := readCompactSize_only hread
    dsimp only at hcheck
    split at hcheck
    · cases hcheck
    · rename_i hle
      cases hcheck
      have hlt : n < UInt16.size := Nat.lt_succ_of_le (Nat.le_of_not_lt hle)
      rw [UInt16.toNat_ofNat_of_lt' hlt]
      exact ⟨trivial, hs⟩

/-- The loop over the indexes, which makes room for 1000 more at a time. -/
def readIndexes (indexes_size : ℕ) : ℕ → List UInt16 → CDataStream (List UInt16)
  | 0, _ => CDataStream.throw
  | n + 1, indexes =>
    if indexes.length < indexes_size then do
      let more ← indexFormat.readTimes
        (min (1000 + indexes.length) indexes_size - indexes.length)
      readIndexes indexes_size n (indexes ++ more)
    else pure indexes

/-- From the gaps to the indexes.  `offset = indexes[j] + 1` has 16 bits. -/
def addOffset : UInt16 → List UInt16 → Option (List UInt16)
  | _, [] => some []
  | offset, index :: indexes =>
    -- indexes overflowed 16 bits
    if index.toNat + offset.toNat > 0xffff then none
    else (addOffset (index + offset + 1) indexes).map fun rest => (index + offset) :: rest

def BlockTransactionsRequest.read : CDataStream BlockTransactionsRequest := do
  let blockhash ← uint256Format.read
  let indexes_size ← CDataStream.readCompactSize
  let indexes ← readIndexes indexes_size (indexes_size + 1) []
  match addOffset 0 indexes with
  | none => CDataStream.throw
  | some indexes => return ⟨blockhash, indexes⟩

def distances : ℤ → List UInt16 → List UInt64
  | _, [] => []
  | next, index :: indexes =>
    UInt64.ofInt (index.toNat - next) :: distances (index.toNat + 1) indexes

def BlockTransactionsRequest.write (req : BlockTransactionsRequest) : Bytes :=
  uint256Format.write req.blockhash ++ (writeCompactSize req.indexes.length ++
    (distances 0 req.indexes).flatMap fun index => writeCompactSize index.toNat)

section Chunks

variable {indexes_size n : ℕ} {indexes : List UInt16} {s : Bytes}

/-- **The chunks make no difference.** -/
theorem readIndexes_eq (hle : indexes.length ≤ indexes_size)
    (hn : indexes_size - indexes.length < n) :
    readIndexes indexes_size n indexes s =
      (indexFormat.readTimes (indexes_size - indexes.length) s).map fun p =>
        (indexes ++ p.1, p.2) := by
  induction n generalizing indexes s with
  | zero => exact absurd hn (Nat.not_lt_zero _)
  | succ n ih =>
    rw [readIndexes]
    split
    · rename_i hlt
      -- As many as this chunk has, and as many as are left after it.
      obtain ⟨k, hk, hpos⟩ : ∃ k, min (1000 + indexes.length) indexes_size - indexes.length = k ∧
        0 < k ∧ k ≤ indexes_size - indexes.length := ⟨_, rfl, by omega, by omega⟩
      have hsum : indexes_size - indexes.length = k + (indexes_size - (indexes.length + k)) := by
        omega
      rw [hk]
      change (indexFormat.readTimes k s).bind (fun p =>
        readIndexes indexes_size n (indexes ++ p.1) p.2) = _
      rw [hsum, Format.readTimes_add, Option.map_bind]
      cases hread : indexFormat.readTimes k s with
      | none => rfl
      | some p =>
        have hlength := (indexFormat.readTimes_only hread).1
        have hnext : (indexes ++ p.1).length = indexes.length + k := by
          rw [List.length_append, hlength]
        rw [Option.bind_some, Option.bind_some, ih (by omega) (by omega), hnext, Function.comp,
          Option.map_map]
        congr 1
        funext q
        rw [Function.comp, List.append_assoc]
    · rename_i hge
      have hzero : indexes_size - indexes.length = 0 := by omega
      rw [hzero]
      change some (indexes, s) = some (indexes ++ [], s)
      rw [List.append_nil]

end Chunks

/-- What a request is made of: the hash of the block, and the gaps with their number. -/
def requestFormat : Format UInt8 (arith_uint256 × List UInt16) :=
  uint256Format.seq (Format.vector compactSizeFormat indexFormat)

theorem read_eq (s : Bytes) : BlockTransactionsRequest.read s =
    (requestFormat.read s).bind fun p => (addOffset 0 p.1.2).map fun indexes =>
      (⟨p.1.1, indexes⟩, p.2) := by
  change (uint256Format.read s).bind _ = ((uint256Format.read s).bind _).bind _
  cases uint256Format.read s with
  | none => rfl
  | some p =>
    change (CDataStream.readCompactSize p.2).bind _ =
      (((CDataStream.readCompactSize p.2).bind _).map _).bind _
    cases CDataStream.readCompactSize p.2 with
    | none => rfl
    | some q =>
      change (readIndexes q.1 (q.1 + 1) [] q.2).bind _ =
        ((indexFormat.readTimes q.1 q.2).map _).bind _
      have hchunks : readIndexes q.1 (q.1 + 1) [] q.2 = (indexFormat.readTimes q.1 q.2).map
          fun p => ([] ++ p.1, p.2) := readIndexes_eq (Nat.zero_le _) (Nat.lt_succ_self _)
      rw [hchunks]
      cases indexFormat.readTimes q.1 q.2 with
      | none => rfl
      | some r =>
        change (match addOffset 0 r.1 with
          | none => CDataStream.throw
          | some indexes => pure (BlockTransactionsRequest.mk p.1 indexes) : CDataStream _) r.2 =
            (addOffset 0 r.1).map _
        cases addOffset 0 r.1 <;> rfl

section Offset

variable {offset : UInt16} {gaps indexes : List UInt16}

def room (gaps : List UInt16) : ℕ := (gaps.map UInt16.toNat).sum + gaps.length

theorem room_cons (gap : UInt16) (gaps : List UInt16) :
    room (gap :: gaps) = gap.toNat + 1 + room gaps := by
  rw [room, room, List.map_cons, List.sum_cons, List.length_cons]
  omega

theorem addOffset_cons {gap : UInt16} (h : addOffset offset (gap :: gaps) = some indexes) :
    ∃ index rest, index.toNat = gap.toNat + offset.toNat ∧ indexes = index :: rest ∧
      addOffset (index + 1) gaps = some rest := by
  rw [addOffset] at h
  split at h
  · cases h
  · rename_i hle
    obtain ⟨rest, hrest, rfl⟩ := Option.map_eq_some_iff.1 h
    refine ⟨gap + offset, rest, ?_, rfl, hrest⟩
    rw [UInt16.toNat_add, Nat.mod_eq_of_lt (by omega)]

theorem toNat_next {index : UInt16} (h : index.toNat < 0xffff) :
    (index + 1).toNat = index.toNat + 1 := by
  have hone : (1 : UInt16).toNat = 1 := rfl
  rw [UInt16.toNat_add, hone]
  exact Nat.mod_eq_of_lt (by omega)

theorem ofInt_gap (gap : UInt16) : UInt64.ofInt (gap.toNat : ℤ) = UInt64.ofNat gap.toNat := by
  have hlt := gap.toNat_lt
  have hmod : (gap.toNat : ℤ) % 2 ^ 64 = gap.toNat := Int.emod_eq_of_lt (by omega) (by omega)
  rw [UInt64.ofInt, hmod, Int.toNat_natCast]

theorem length_addOffset (h : addOffset offset gaps = some indexes) :
    indexes.length = gaps.length := by
  induction gaps generalizing offset indexes with
  | nil =>
    cases h
    rfl
  | cons gap gaps ih =>
    obtain ⟨index, rest, -, rfl, hrest⟩ := addOffset_cons h
    rw [List.length_cons, List.length_cons, ih hrest]

theorem addOffset_fits (h : addOffset offset gaps = some indexes)
    (hroom : offset.toNat + room gaps ≤ 2 ^ 16) :
    (∀ index ∈ indexes, offset.toNat ≤ index.toNat) ∧ indexes.Pairwise (· < ·) ∧
      distances offset.toNat indexes = gaps.map fun gap => UInt64.ofNat gap.toNat := by
  induction gaps generalizing offset indexes with
  | nil =>
    cases h
    exact ⟨nofun, .nil, rfl⟩
  | cons gap gaps ih =>
    obtain ⟨index, rest, hindex, rfl, hrest⟩ := addOffset_cons h
    rw [room_cons] at hroom
    have hgap : ((index.toNat : ℤ) - offset.toNat) = gap.toNat := by omega
    rw [List.forall_mem_cons, List.pairwise_cons, distances, hgap, ofInt_gap,
      List.map_cons]
    rcases Nat.lt_or_ge index.toNat 0xffff with hlt | hge
    · have hnext := toNat_next hlt
      obtain ⟨hlow, hpair, hdist⟩ := ih hrest (by omega)
      rw [hnext] at hlow hdist
      refine ⟨⟨by omega, ?_⟩, ⟨?_, hpair⟩, ?_⟩
      · intro i hi
        have hi' := hlow i hi
        omega
      · intro i hi
        exact UInt16.lt_iff_toNat_lt.2 (hlow i hi)
      · rw [← hdist]
        rfl
    · -- It is the last index, and no gap is left.
      have hnone : gaps = [] := by
        cases gaps with
        | nil => rfl
        | cons gap' gaps' =>
          rw [room_cons] at hroom
          omega
      subst hnone
      cases hrest
      exact ⟨⟨by omega, nofun⟩, ⟨nofun, .nil⟩, rfl⟩

/-- **Where the gaps do not fit, an index comes after the last one there can be.** -/
theorem addOffset_wraps (h : addOffset offset gaps = some indexes)
    (hroom : 2 ^ 16 < offset.toNat + room gaps) : ¬indexes.Pairwise (· < ·) := by
  induction gaps generalizing offset indexes with
  | nil =>
    have hlt := offset.toNat_lt
    change 2 ^ 16 < offset.toNat at hroom
    omega
  | cons gap gaps ih =>
    obtain ⟨index, rest, hindex, rfl, hrest⟩ := addOffset_cons h
    have hlt := index.toNat_lt
    rw [room_cons] at hroom
    rw [List.pairwise_cons]
    rintro ⟨habove, hpair⟩
    rcases Nat.lt_or_ge index.toNat 0xffff with hsmall | hge
    · refine ih hrest ?_ hpair
      rw [toNat_next hsmall]
      omega
    · have hlength := length_addOffset hrest
      cases rest with
      | nil =>
        have hnone : gaps = [] := List.length_eq_zero_iff.1 hlength.symm
        subst hnone
        change 2 ^ 16 < offset.toNat + (gap.toNat + 1 + 0) at hroom
        omega
      | cons i rest =>
        have hi := UInt16.lt_iff_toNat_lt.1 (habove i List.mem_cons_self)
        have hi' := i.toNat_lt
        omega

theorem addOffset_distances (hlow : ∀ index ∈ indexes, offset.toNat ≤ index.toNat)
    (hpair : indexes.Pairwise (· < ·)) :
    ∃ gaps, addOffset offset gaps = some indexes ∧ offset.toNat + room gaps ≤ 2 ^ 16 := by
  induction indexes generalizing offset with
  | nil => exact ⟨[], rfl, Nat.le_of_lt offset.toNat_lt⟩
  | cons index rest ih =>
    rw [List.forall_mem_cons] at hlow
    rw [List.pairwise_cons] at hpair
    have hlt := index.toNat_lt
    have hgap : (index - offset).toNat + offset.toNat = index.toNat := by
      rw [UInt16.toNat_sub_of_le _ _ (UInt16.le_iff_toNat_le.2 hlow.1)]
      omega
    have hsum : index - offset + offset = index := UInt16.sub_add_cancel index offset
    have hcons : ∀ gaps, addOffset (index + 1) gaps = some rest →
        addOffset offset ((index - offset) :: gaps) = some (index :: rest) := by
      intro gaps hgaps
      rw [addOffset, if_neg (by omega), hsum, hgaps]
      rfl
    rcases Nat.lt_or_ge index.toNat 0xffff with hsmall | hge
    · have hnext := toNat_next hsmall
      obtain ⟨gaps, hgaps, hroom⟩ := @ih (index + 1) (by
        intro i hi
        rw [hnext]
        exact UInt16.lt_iff_toNat_lt.1 (hpair.1 i hi)) hpair.2
      refine ⟨(index - offset) :: gaps, hcons gaps hgaps, ?_⟩
      rw [room_cons]
      omega
    · have hnone : rest = [] := by
        cases rest with
        | nil => rfl
        | cons i rest =>
          have hi := UInt16.lt_iff_toNat_lt.1 (hpair.1 i List.mem_cons_self)
          have hi' := i.toNat_lt
          omega
      subst hnone
      refine ⟨[index - offset], hcons [] rfl, ?_⟩
      change offset.toNat + ((index - offset).toNat + 0 + 1) ≤ 2 ^ 16
      omega

end Offset

section Requests

variable {req : BlockTransactionsRequest} {gaps : List UInt16} {s rest : Bytes}

theorem length_distances (next : ℤ) (indexes : List UInt16) :
    (distances next indexes).length = indexes.length := by
  induction indexes generalizing next with
  | nil => rfl
  | cons index indexes ih => rw [distances, List.length_cons, List.length_cons, ih]

theorem write_eq (h : distances 0 req.indexes = gaps.map fun gap => UInt64.ofNat gap.toNat) :
    req.write = requestFormat.write (req.blockhash, gaps) := by
  have hlength : req.indexes.length = gaps.length := by
    have hmap := congrArg List.length h
    rwa [length_distances, List.length_map] at hmap
  have hgaps : (distances 0 req.indexes).flatMap (fun index => writeCompactSize index.toNat) =
      gaps.flatMap indexFormat.write := by
    rw [h, List.flatMap_map]
    refine List.flatMap_congr ?_
    intro gap _
    have hlt := gap.toNat_lt
    have hgap : gap.toNat < 2 ^ 64 := by omega
    rw [UInt64.toNat_ofNat_of_lt' hgap]
    rfl
  rw [BlockTransactionsRequest.write, hgaps, hlength]
  rfl

theorem read_eq_some : BlockTransactionsRequest.read s = some (req, rest) ↔
    ∃ gaps, requestFormat.read s = some ((req.blockhash, gaps), rest) ∧
      addOffset 0 gaps = some req.indexes := by
  rw [read_eq, Option.bind_eq_some_iff]
  constructor
  · rintro ⟨⟨⟨blockhash, gaps⟩, t⟩, hread, h⟩
    obtain ⟨indexes, hindexes, h⟩ := Option.map_eq_some_iff.1 h
    cases h
    exact ⟨gaps, hread, hindexes⟩
  · rintro ⟨gaps, hread, hindexes⟩
    exact ⟨_, hread, Option.map_eq_some_iff.2 ⟨_, hindexes, rfl⟩⟩

/-- **Ascending indexes are read back.** -/
theorem read_write (hpair : req.indexes.Pairwise (· < ·)) (rest : Bytes) :
    BlockTransactionsRequest.read (req.write ++ rest) = some (req, rest) := by
  obtain ⟨gaps, hgaps, hroom⟩ := @addOffset_distances 0 req.indexes (fun _ _ => Nat.zero_le _) hpair
  obtain ⟨-, -, hdist⟩ := addOffset_fits hgaps hroom
  have hvalid : requestFormat.valid (req.blockhash, gaps) := by
    refine ⟨trivial, ?_, fun _ _ => trivial⟩
    have hmax : 2 ^ 16 ≤ CDataStream.MAX_SIZE := by decide
    change gaps.length ≤ CDataStream.MAX_SIZE
    rw [room] at hroom
    omega
  rw [write_eq hdist]
  exact read_eq_some.2 ⟨gaps, requestFormat.reads _ rest hvalid, hgaps⟩

/-- The gaps in front of a stream have room among the numbers of 16 bits. -/
def GapsFit (s : Bytes) : Prop :=
  ∀ blockhash gaps rest, requestFormat.read s = some ((blockhash, gaps), rest) →
    room gaps ≤ 2 ^ 16

theorem gapsFit_iff {blockhash : arith_uint256}
    (h : requestFormat.read s = some ((blockhash, gaps), rest)) :
    GapsFit s ↔ room gaps ≤ 2 ^ 16 := by
  constructor
  · intro hfit
    exact hfit _ _ _ h
  · intro hroom blockhash' gaps' rest' h'
    rw [h] at h'
    cases h'
    exact hroom

/-- **Exactly when what is read is ascending.**  Ascending indexes are read back, and a request that
is read is ascending and what would be written if and only if its gaps fit. -/
theorem blockTransactionsRequest_exact (s : Bytes) (req : BlockTransactionsRequest)
    (rest : Bytes) :
    (req.indexes.Pairwise (· < ·) →
      BlockTransactionsRequest.read (req.write ++ rest) = some (req, rest)) ∧
    (BlockTransactionsRequest.read s = some (req, rest) →
      (req.indexes.Pairwise (· < ·) ∧ s = req.write ++ rest ↔ GapsFit s)) := by
  refine ⟨fun hpair => read_write hpair rest, ?_⟩
  intro hread
  obtain ⟨gaps, hformat, hgaps⟩ := read_eq_some.1 hread
  rw [gapsFit_iff hformat]
  have hzero : (0 : UInt16).toNat + room gaps = room gaps := Nat.zero_add _
  constructor
  · rintro ⟨hpair, -⟩
    by_contra hroom
    exact addOffset_wraps hgaps (by omega) hpair
  · intro hroom
    obtain ⟨-, hpair, hdist⟩ := addOffset_fits hgaps (by omega)
    refine ⟨hpair, ?_⟩
    rw [write_eq hdist]
    exact (requestFormat.only _ _ _ hformat).2

/-- A request for the last two indexes, and one for the last index only. -/
theorem lastIndexes_read :
    BlockTransactionsRequest.read (BlockTransactionsRequest.write ⟨0, [0xfffe, 0xffff]⟩ ++ []) =
        some (⟨0, [0xfffe, 0xffff]⟩, []) ∧
      GapsFit (BlockTransactionsRequest.write ⟨0, [0xfffe, 0xffff]⟩ ++ []) := by
  have hpair : [(0xfffe : UInt16), 0xffff].Pairwise (· < ·) := by decide
  obtain ⟨hwritten, haccepted⟩ := blockTransactionsRequest_exact
    (BlockTransactionsRequest.write ⟨0, [0xfffe, 0xffff]⟩ ++ []) ⟨0, [0xfffe, 0xffff]⟩ []
  exact ⟨hwritten hpair, (haccepted (hwritten hpair)).1 ⟨hpair, rfl⟩⟩

def wrappingRequest : Bytes := List.replicate 32 0 ++ [2, 253, 255, 255, 0]

/-- **Index 0 comes after index 65535**, and is not written so. -/
theorem wrappingRequest_descends :
    ¬∀ s req rest, BlockTransactionsRequest.read s = some (req, rest) →
      req.indexes.Pairwise (· < ·) ∧ s = req.write ++ rest := by
  intro h
  have hread : BlockTransactionsRequest.read wrappingRequest = some (⟨0, [0xffff, 0]⟩, []) := by
    decide +kernel
  have hpair := (h _ _ _ hread).1
  revert hpair
  decide

end Requests

end Wire

end UnemployCoin
