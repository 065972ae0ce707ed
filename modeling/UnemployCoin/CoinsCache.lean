import UnemployCoin.Coins
import UnemployCoin.Lib.Run
import UnemployCoin.Lib.WriteBack
/-!
# Coin caches

`CCoinsViewCache` (`coins.cpp`): a cache of coins over another view, which may be a cache again.
A stack of them stands on a base view, whose `GetCoin` and `BatchWrite` are given; a node has
`CCoinsViewDB` there.  What a cache counts of its memory is left out.
-/

namespace UnemployCoin

open Check WriteBack StdMap

/-! ## Coins of a cache -/

def Coin.isSpent (coin : Coin) : Bool := coin.out.nValue == -1

/-- `Coin::Coin` and what `Coin::Clear` leaves. -/
def Coin.null : Coin := ⟨⟨-1, []⟩, false, 0⟩

def Coin.unspent (coin : Coin) : Option Coin := if coin.isSpent then none else some coin

structure CCoinsCacheEntry where
  coin : Coin
  dirty : Bool
  fresh : Bool
  deriving DecidableEq, Repr

abbrev CCoinsMap := StdMap COutPoint CCoinsCacheEntry

structure CCoinsViewCache where
  cacheCoins : CCoinsMap
  hashBlock : uint256

def CCoinsViewCache.empty : CCoinsViewCache := ⟨∅, 0⟩

/-- A view that is no cache: `GetCoin`, and `BatchWrite` where it does not fail. -/
structure BaseView (σ : Type) where
  getCoin : σ → COutPoint → Option Coin
  batchWrite : σ → CCoinsMap → uint256 → Except String σ

namespace CCoinsViewCache

/-- `FetchCoin`, where `below` is what the view below has. -/
def fetchCoin (cache : CCoinsViewCache) (outpoint : COutPoint) (below : Option Coin) :
    CCoinsViewCache × Option CCoinsCacheEntry :=
  match cache.cacheCoins.find? outpoint with
  | some entry => (cache, some entry)
  | none =>
    match below with
    | none => (cache, none)
    | some tmp =>
      let entry : CCoinsCacheEntry := ⟨tmp, false, tmp.isSpent⟩
      ({ cache with cacheCoins := cache.cacheCoins.emplace outpoint entry }, some entry)

def addCoin (cache : CCoinsViewCache) (outpoint : COutPoint) (coin : Coin)
    (possible_overwrite : Bool) : Except String CCoinsViewCache := do
  require (!coin.isSpent) "assert(!coin.IsSpent())"
  if coin.out.scriptPubKey.isUnspendable then return cache
  else do
    let entry := (cache.cacheCoins.find? outpoint).getD ⟨.null, false, false⟩
    require (possible_overwrite || entry.coin.isSpent)
      "Adding new coin that replaces non-pruned entry"
    let fresh := !possible_overwrite && !entry.dirty
    return { cache with
      cacheCoins := cache.cacheCoins.assign outpoint ⟨coin, true, entry.fresh || fresh⟩ }

/-- `SpendCoin`, on the entry that has been fetched. -/
def spendEntry (cache : CCoinsViewCache) (outpoint : COutPoint) (entry : CCoinsCacheEntry) :
    CCoinsViewCache :=
  { cache with
    cacheCoins :=
      if entry.fresh then cache.cacheCoins.erase outpoint
      else cache.cacheCoins.assign outpoint ⟨.null, true, entry.fresh⟩ }

def uncache (cache : CCoinsViewCache) (outpoint : COutPoint) : CCoinsViewCache :=
  match cache.cacheCoins.find? outpoint with
  | none => cache
  | some entry =>
    if entry.dirty || entry.fresh then cache
    else { cache with cacheCoins := cache.cacheCoins.erase outpoint }

/-- The error of `BatchWrite`. -/
def freshMisapplied : String :=
  "FRESH flag misapplied to cache entry for base transaction with spendable outputs"

/-- `BatchWrite`, on one entry of the map that is written. -/
def batchWriteEntry (cacheCoins : CCoinsMap) (it : COutPoint × CCoinsCacheEntry) :
    Except String CCoinsMap :=
  let (outpoint, child) := it
  if !child.dirty then .ok cacheCoins
  else
    match cacheCoins.find? outpoint with
    | none =>
      if child.fresh && child.coin.isSpent then .ok cacheCoins
      else .ok (cacheCoins.assign outpoint ⟨child.coin, true, child.fresh⟩)
    | some itUs =>
      if child.fresh && !itUs.coin.isSpent then .error freshMisapplied
      else if itUs.fresh && child.coin.isSpent then .ok (cacheCoins.erase outpoint)
      -- The flag of the child is not copied to an entry that is there.
      else .ok (cacheCoins.assign outpoint ⟨child.coin, true, itUs.fresh⟩)

def batchWrite (cache : CCoinsViewCache) (mapCoins : CCoinsMap) (hashBlockIn : uint256) :
    Except String CCoinsViewCache := do
  let cacheCoins ← mapCoins.entries.foldlM batchWriteEntry cache.cacheCoins
  return ⟨cacheCoins, hashBlockIn⟩

end CCoinsViewCache

/-! ## The stack -/

/-- Caches over a base view, the top one first. -/
structure CoinsStack (σ : Type) where
  caches : List CCoinsViewCache
  base : σ

namespace CoinsStack

variable {σ : Type} (V : BaseView σ)

/-- `GetCoin` through some caches.  Each cache on the way keeps what it has asked for. -/
def getCoin (base : σ) (outpoint : COutPoint) :
    List CCoinsViewCache → List CCoinsViewCache × Option Coin
  | [] => ([], V.getCoin base outpoint)
  | cache :: caches =>
    let (caches, below) :=
      if cache.cacheCoins.count outpoint then (caches, none) else getCoin base outpoint caches
    let (cache, entry) := cache.fetchCoin outpoint below
    (cache :: caches, entry.bind fun entry => entry.coin.unspent)

/-- `SpendCoin` through the top cache, and the coin it hands over. -/
def spendCoin (base : σ) (outpoint : COutPoint) :
    List CCoinsViewCache → List CCoinsViewCache × Option Coin
  | [] => ([], none)
  | cache :: caches =>
    let (caches, below) :=
      if cache.cacheCoins.count outpoint then (caches, none) else getCoin V base outpoint caches
    match cache.fetchCoin outpoint below with
    | (cache, none) => (cache :: caches, none)
    | (cache, some entry) => (cache.spendEntry outpoint entry :: caches, some entry.coin)

/-- `GetCoin` of the cache with some index, counted from the top. -/
def getCoinAt (base : σ) (outpoint : COutPoint) :
    ℕ → List CCoinsViewCache → List CCoinsViewCache
  | 0, caches => (getCoin V base outpoint caches).1
  | _ + 1, [] => []
  | i + 1, cache :: caches => cache :: getCoinAt base outpoint i caches

/-- `Flush` of the cache with some index. -/
def flushAt : ℕ → List CCoinsViewCache → σ → Except String (List CCoinsViewCache × σ)
  | _, [], _ => .error "no such cache"
  | 0, [cache], base => do
    let base ← V.batchWrite base cache.cacheCoins cache.hashBlock
    return ([{ cache with cacheCoins := ∅ }], base)
  | 0, cache :: parent :: caches, base => do
    let parent ← parent.batchWrite cache.cacheCoins cache.hashBlock
    return ({ cache with cacheCoins := ∅ } :: parent :: caches, base)
  | i + 1, cache :: caches, base => do
    let (caches, base) ← flushAt i caches base
    return (cache :: caches, base)

end CoinsStack

inductive CoinsOperation where
  | addCoin (outpoint : COutPoint) (coin : Coin) (possible_overwrite : Bool)
  | spendCoin (outpoint : COutPoint)
  | setBestBlock (hashBlock : uint256)
  | getCoin (i : ℕ) (outpoint : COutPoint)
  | uncache (i : ℕ) (outpoint : COutPoint)
  | flush (i : ℕ)
  | push
  /-- The top cache goes, and what it has not flushed with it. -/
  | pop

def CoinsStack.perform {σ : Type} (V : BaseView σ) (s : CoinsStack σ) :
    CoinsOperation → Except String (CoinsStack σ)
  | .addCoin outpoint coin possible_overwrite =>
    match s.caches with
    | [] => .error "no such cache"
    | cache :: caches => do
      let cache ← cache.addCoin outpoint coin possible_overwrite
      return { s with caches := cache :: caches }
  | .spendCoin outpoint =>
    match s.caches with
    | [] => .error "no such cache"
    | _ :: _ => .ok { s with caches := (spendCoin V s.base outpoint s.caches).1 }
  | .setBestBlock hashBlock =>
    .ok { s with caches := s.caches.modifyHead fun cache => { cache with hashBlock := hashBlock } }
  | .getCoin i outpoint => .ok { s with caches := getCoinAt V s.base outpoint i s.caches }
  | .uncache i outpoint =>
    .ok { s with caches := s.caches.modify i fun cache => cache.uncache outpoint }
  | .flush i => do
    let (caches, base) ← flushAt V i s.caches s.base
    return ⟨caches, base⟩
  | .push => .ok { s with caches := .empty :: s.caches }
  | .pop =>
    match s.caches with
    | [] => .error "no such cache"
    | _ :: caches => .ok { s with caches := caches }

def coinsStack {σ : Type} (V : BaseView σ) : Machine (CoinsStack σ) CoinsOperation where
  step s op := (s.perform V op).toOption

/-! ## What the views show -/

def CCoinsCacheEntry.version (entry : CCoinsCacheEntry) : Entry Coin :=
  ⟨entry.coin.unspent, entry.dirty, entry.fresh⟩

def cellOf (coins : CCoinsMap) (outpoint : COutPoint) : Option (Entry Coin) :=
  (coins.find? outpoint).map CCoinsCacheEntry.version

abbrev PlainCoins := COutPoint → Option Coin

def BaseView.seen {σ : Type} (V : BaseView σ) (base : σ) : PlainCoins :=
  fun outpoint => (V.getCoin base outpoint).bind Coin.unspent

/-- A base view whose `BatchWrite`, where it does not fail, has made **every dirty entry** its
own and left the other coins alone. -/
def BaseView.Writes {σ : Type} (V : BaseView σ) : Prop :=
  ∀ base mapCoins hashBlock base', V.batchWrite base mapCoins hashBlock = .ok base' →
    ∀ outpoint, V.seen base' outpoint =
      match mapCoins.find? outpoint with
      | some entry => if entry.dirty then entry.coin.unspent else V.seen base outpoint
      | none => V.seen base outpoint

section Views

variable {σ : Type} (V : BaseView σ)

def seenThrough (base : σ) : List CCoinsViewCache → PlainCoins
  | [], outpoint => V.seen base outpoint
  | cache :: caches, outpoint =>
    shows (seenThrough base caches outpoint) (cellOf cache.cacheCoins outpoint)

def viewsOf (base : σ) : List CCoinsViewCache → List PlainCoins
  | [] => [V.seen base]
  | cache :: caches => seenThrough V base (cache :: caches) :: viewsOf base caches

/-- The flags of every cache are right about the view below it. -/
def SoundCaches (base : σ) : List CCoinsViewCache → Prop
  | [] => True
  | cache :: caches =>
    (∀ outpoint, Sound (seenThrough V base caches outpoint) (cellOf cache.cacheCoins outpoint)) ∧
      SoundCaches base caches

def CoinsStack.seen (s : CoinsStack σ) : PlainCoins := seenThrough V s.base s.caches

/-- The coins that each view shows, from the top cache to the base. -/
def CoinsStack.views (s : CoinsStack σ) : List PlainCoins := viewsOf V s.base s.caches

end Views

def flushPlain (i : ℕ) (plains : List PlainCoins) : List PlainCoins :=
  match plains[i]? with
  | some coins => plains.set (i + 1) coins
  | none => plains

/-- What an operation does to plain maps, one for each view.  An addition of a coin that cannot
be spent is none. -/
def CoinsOperation.onPlain (plains : List PlainCoins) : CoinsOperation → List PlainCoins
  | .addCoin outpoint coin _ =>
    if coin.out.scriptPubKey.isUnspendable then plains
    else plains.modifyHead fun coins => Function.update coins outpoint (some coin)
  | .spendCoin outpoint => plains.modifyHead fun coins => Function.update coins outpoint none
  | .flush i => flushPlain i plains
  | .push => plains.head?.toList ++ plains
  | .pop => plains.tail
  | .setBestBlock _ | .getCoin _ _ | .uncache _ _ => plains

/-- A coin is added without leave to overwrite only where there is none. -/
def CoinsOperation.Allowed (coins : PlainCoins) : CoinsOperation → Prop
  | .addCoin outpoint _ possible_overwrite => possible_overwrite = false → coins outpoint = none
  | _ => True

/-! ## One cache -/

section Cache

variable {cache cache' : CCoinsViewCache} {outpoint : COutPoint} {coin : Coin}
  {below : PlainCoins}

theorem isSpent_null : Coin.null.isSpent = true := rfl

theorem unspent_of_isSpent (h : coin.isSpent = true) : coin.unspent = none := if_pos h

theorem unspent_of_not_isSpent (h : coin.isSpent = false) : coin.unspent = some coin :=
  if_neg (Bool.eq_false_iff.1 h)

theorem isNone_unspent (coin : Coin) : coin.unspent.isNone = coin.isSpent := by
  rw [Coin.unspent]
  cases coin.isSpent <;> rfl

theorem unspent_bind (coin : Coin) : coin.unspent.bind Coin.unspent = coin.unspent := by
  rcases Bool.eq_false_or_eq_true coin.isSpent with h | h
  · rw [unspent_of_isSpent h, Option.bind_none]
  · rw [unspent_of_not_isSpent h, Option.bind_some, unspent_of_not_isSpent h]

theorem cell_of_find? {coins : CCoinsMap} {entry : CCoinsCacheEntry}
    (h : coins.find? outpoint = some entry) : cellOf coins outpoint = some entry.version := by
  rw [cellOf, h, Option.map_some]

theorem cell_eq_none {coins : CCoinsMap} (h : coins.find? outpoint = none) :
    cellOf coins outpoint = none := by
  rw [cellOf, h, Option.map_none]

theorem fetchCoin_sound (hsound : ∀ o, Sound (below o) (cellOf cache.cacheCoins o))
    {answer : Option Coin}
    (hanswer : cache.cacheCoins.find? outpoint = none → answer.bind Coin.unspent = below outpoint) :
    ∀ o, Sound (below o) (cellOf (cache.fetchCoin outpoint answer).1.cacheCoins o) ∧
      shows (below o) (cellOf (cache.fetchCoin outpoint answer).1.cacheCoins o) =
        shows (below o) (cellOf cache.cacheCoins o) := by
  intro o
  unfold CCoinsViewCache.fetchCoin
  split
  · exact ⟨hsound o, rfl⟩
  · rename_i hfind
    cases answer with
    | none => exact ⟨hsound o, rfl⟩
    | some tmp =>
      have hbelow : tmp.unspent = below outpoint := hanswer hfind
      dsimp only
      rw [cellOf, find?_emplace]
      split
      · rename_i ho
        subst ho
        have hload : CCoinsCacheEntry.version ⟨tmp, false, tmp.isSpent⟩ = load (below o) := by
          rw [CCoinsCacheEntry.version, load, ← hbelow, isNone_unspent]
        rw [hfind, Option.getD_none, Option.map_some, hload, cell_eq_none hfind]
        exact ⟨sound_some.2 (sound_load (below o)), rfl⟩
      · exact ⟨hsound o, rfl⟩

theorem fetchCoin_entry {answer : Option Coin}
    (hanswer : cache.cacheCoins.find? outpoint = none → answer.bind Coin.unspent = below outpoint) :
    ((cache.fetchCoin outpoint answer).2.bind fun entry => entry.coin.unspent) =
      shows (below outpoint) (cellOf cache.cacheCoins outpoint) := by
  unfold CCoinsViewCache.fetchCoin
  split
  · rename_i entry hfind
    rw [cell_of_find? hfind]
    rfl
  · rename_i hfind
    rw [cell_eq_none hfind, shows_none, ← hanswer hfind]
    cases answer <;> rfl

theorem fetchCoin_find? (cache : CCoinsViewCache) (outpoint : COutPoint) (answer : Option Coin) :
    (cache.fetchCoin outpoint answer).1.cacheCoins.find? outpoint =
      (cache.fetchCoin outpoint answer).2 := by
  unfold CCoinsViewCache.fetchCoin
  split
  · rename_i entry hfind
    exact hfind
  · rename_i hfind
    cases answer with
    | none => exact hfind
    | some tmp =>
      dsimp only
      rw [find?_emplace, if_pos rfl, hfind, Option.getD_none]

theorem addCoin_sound {possible_overwrite : Bool}
    (hsound : ∀ o, Sound (below o) (cellOf cache.cacheCoins o))
    (hfree : possible_overwrite = false →
      shows (below outpoint) (cellOf cache.cacheCoins outpoint) = none)
    (h : cache.addCoin outpoint coin possible_overwrite = .ok cache') :
    ∀ o, Sound (below o) (cellOf cache'.cacheCoins o) ∧
      shows (below o) (cellOf cache'.cacheCoins o) =
      if coin.out.scriptPubKey.isUnspendable then shows (below o) (cellOf cache.cacheCoins o)
      else Function.update (fun o => shows (below o) (cellOf cache.cacheCoins o)) outpoint
        (some coin) o := by
  intro o
  rw [CCoinsViewCache.addCoin, require_bind, Bool.not_eq_true'] at h
  obtain ⟨hspent, h⟩ := h
  split at h
  · rename_i hunspendable
    cases h
    rw [if_pos hunspendable]
    exact ⟨hsound o, rfl⟩
  · rename_i hspendable
    rw [require_bind] at h
    obtain ⟨-, h⟩ := h
    cases h
    rw [if_neg hspendable, cellOf, find?_assign]
    by_cases ho : o = outpoint
    · subst ho
      have hwrite : CCoinsCacheEntry.version ⟨coin, true,
          ((cache.cacheCoins.find? o).getD ⟨.null, false, false⟩).fresh ||
            (!possible_overwrite &&
              !((cache.cacheCoins.find? o).getD ⟨.null, false, false⟩).dirty)⟩ =
          write (cellOf cache.cacheCoins o) coin possible_overwrite := by
        rw [CCoinsCacheEntry.version, write, unspent_of_not_isSpent hspent, cellOf]
        cases cache.cacheCoins.find? o <;> rfl
      rw [if_pos rfl, Option.map_some, hwrite, Function.update_self]
      exact ⟨sound_some.2 (sound_write (hsound o) hfree), rfl⟩
    · rw [if_neg ho, Function.update_of_ne ho]
      exact ⟨hsound o, rfl⟩

theorem addCoin_of_isSpent {possible_overwrite : Bool} (hspent : coin.isSpent = true) :
    cache.addCoin outpoint coin possible_overwrite = .error "assert(!coin.IsSpent())" := by
  unfold CCoinsViewCache.addCoin
  rw [hspent]
  rfl

theorem addCoin_ok (below : PlainCoins) {possible_overwrite : Bool} (hspent : coin.isSpent = false)
    (hfree : possible_overwrite = false →
      shows (below outpoint) (cellOf cache.cacheCoins outpoint) = none) :
    ∃ cache', cache.addCoin outpoint coin possible_overwrite = .ok cache' := by
  unfold CCoinsViewCache.addCoin
  simp only [require_bind, hspent, Bool.not_false, true_and]
  split
  · exact ⟨cache, rfl⟩
  · have hentry : (possible_overwrite ||
        ((cache.cacheCoins.find? outpoint).getD ⟨.null, false, false⟩).coin.isSpent) = true := by
      cases hfind : cache.cacheCoins.find? outpoint with
      | none => rw [Option.getD_none, isSpent_null, Bool.or_true]
      | some entry =>
        rw [cell_of_find? hfind, shows_some] at hfree
        cases possible_overwrite with
        | true => rfl
        | false =>
          have hnone : entry.coin.unspent = none := hfree rfl
          rw [Option.getD_some, ← isNone_unspent, hnone]
          rfl
    exact ⟨_, by rw [require_bind]; exact ⟨hentry, rfl⟩⟩

theorem spendEntry_sound {entry : CCoinsCacheEntry}
    (hsound : ∀ o, Sound (below o) (cellOf cache.cacheCoins o))
    (hfind : cache.cacheCoins.find? outpoint = some entry) :
    ∀ o, Sound (below o) (cellOf (cache.spendEntry outpoint entry).cacheCoins o) ∧
      shows (below o) (cellOf (cache.spendEntry outpoint entry).cacheCoins o) =
        Function.update (fun o => shows (below o) (cellOf cache.cacheCoins o)) outpoint none o := by
  intro o
  by_cases ho : o = outpoint
  · subst ho
    have herase : cellOf (cache.spendEntry o entry).cacheCoins o = erase entry.version := by
      rw [cellOf, CCoinsViewCache.spendEntry, WriteBack.erase, CCoinsCacheEntry.version]
      dsimp only
      split
      · rw [find?_erase_self, Option.map_none]
      · rw [find?_assign_self, Option.map_some, CCoinsCacheEntry.version,
          unspent_of_isSpent isSpent_null]
    have hentry : entry.version.Sound (below o) := by
      have h := hsound o
      rw [cell_of_find? hfind] at h
      exact sound_some.1 h
    rw [herase, Function.update_self]
    exact ⟨sound_erase _, shows_erase hentry⟩
  · have hsame : cellOf (cache.spendEntry outpoint entry).cacheCoins o =
        cellOf cache.cacheCoins o := by
      rw [cellOf, CCoinsViewCache.spendEntry]
      dsimp only
      split
      · rw [find?_erase_ne ho, cellOf]
      · rw [find?_assign_ne ho, cellOf]
    rw [hsame, Function.update_of_ne ho]
    exact ⟨hsound o, rfl⟩

theorem uncache_sound (hsound : ∀ o, Sound (below o) (cellOf cache.cacheCoins o)) :
    ∀ o, Sound (below o) (cellOf (cache.uncache outpoint).cacheCoins o) ∧
      shows (below o) (cellOf (cache.uncache outpoint).cacheCoins o) =
        shows (below o) (cellOf cache.cacheCoins o) := by
  intro o
  rw [CCoinsViewCache.uncache]
  split
  · exact ⟨hsound o, rfl⟩
  · rename_i entry hfind
    split
    · exact ⟨hsound o, rfl⟩
    · rename_i hflags
      by_cases ho : o = outpoint
      · subst ho
        have hclean : entry.dirty = false := by
          rw [Bool.or_eq_true, not_or, Bool.not_eq_true] at hflags
          exact hflags.1
        have hentry : entry.version.Sound (below o) := by
          have h := hsound o
          rw [cell_of_find? hfind] at h
          exact sound_some.1 h
        rw [cell_of_find? hfind, cellOf, find?_erase_self, Option.map_none]
        exact ⟨sound_none _, shows_drop hentry hclean⟩
      · rw [cellOf, find?_erase_ne ho]
        exact ⟨hsound o, rfl⟩

end Cache

/-! ## Writing back -/

section Write

variable {coins coins' : CCoinsMap} {outpoint : COutPoint} {child : CCoinsCacheEntry}
  {below : PlainCoins}

theorem cell_assign (coins : CCoinsMap) (outpoint o : COutPoint) (entry : CCoinsCacheEntry) :
    cellOf (coins.assign outpoint entry) o =
      if o = outpoint then some entry.version else cellOf coins o := by
  rw [cellOf, find?_assign]
  split <;> rfl

theorem cell_erase (coins : CCoinsMap) (outpoint o : COutPoint) :
    cellOf (coins.erase outpoint) o = if o = outpoint then none else cellOf coins o := by
  rw [cellOf, find?_erase]
  split <;> rfl

theorem batchWriteEntry_ok {cell' : Option (Entry Coin)}
    (h : merge (cellOf coins outpoint) child.version = some cell') :
    ∃ coins', CCoinsViewCache.batchWriteEntry coins (outpoint, child) = .ok coins' ∧
      ∀ o, cellOf coins' o = if o = outpoint then cell' else cellOf coins o := by
  have hkeep : ∀ o, cellOf coins o =
      if o = outpoint then cellOf coins outpoint else cellOf coins o := by
    intro o
    split
    · rename_i ho
      rw [ho]
    · rfl
  have hspent : child.version.value.isNone = child.coin.isSpent := isNone_unspent child.coin
  have hfresh : child.version.fresh = child.fresh := rfl
  unfold CCoinsViewCache.batchWriteEntry
  unfold WriteBack.merge at h
  rw [hspent, hfresh] at h
  dsimp only
  cases hdirty : child.dirty with
  | false =>
    have hversion : child.version.dirty = false := hdirty
    rw [if_pos hversion] at h
    cases h
    exact ⟨coins, rfl, hkeep⟩
  | true =>
    have hversion : ¬ child.version.dirty = false := Bool.not_eq_false _ ▸ hdirty
    rw [if_neg hversion] at h
    rw [Bool.not_true, if_neg Bool.false_ne_true]
    cases hfind : coins.find? outpoint with
    | none =>
      rw [cell_eq_none hfind, Option.any_none, Option.elim_none, Bool.and_false,
        if_neg Bool.false_ne_true] at h
      dsimp only
      split at h
      · rename_i hdrop
        cases h
        rw [if_pos hdrop]
        rw [cell_eq_none hfind] at hkeep
        exact ⟨coins, rfl, hkeep⟩
      · rename_i hwrite
        cases h
        rw [if_neg hwrite]
        exact ⟨_, rfl, fun o => cell_assign coins outpoint o _⟩
    | some itUs =>
      have hvalue : itUs.version.value.isSome = !itUs.coin.isSpent := by
        rw [← isNone_unspent, Option.not_isNone]
        rfl
      have hus : itUs.version.fresh = itUs.fresh := rfl
      rw [cell_of_find? hfind, Option.any_some, Option.elim_some, hvalue, hus] at h
      dsimp only
      split at h
      · cases h
      · rename_i hfree
        rw [if_neg hfree]
        split at h
        · rename_i hdrop
          cases h
          rw [if_pos hdrop]
          exact ⟨_, rfl, fun o => cell_erase coins outpoint o⟩
        · rename_i hwrite
          cases h
          rw [if_neg hwrite]
          exact ⟨_, rfl, fun o => cell_assign coins outpoint o _⟩

def entryOf (entries : List (COutPoint × CCoinsCacheEntry)) (outpoint : COutPoint) :
    Option (Entry Coin) :=
  ((entries.find? fun e => decide (e.1 = outpoint)).map Prod.snd).map CCoinsCacheEntry.version

theorem entryOf_entries (coins : CCoinsMap) (outpoint : COutPoint) :
    entryOf coins.entries outpoint = cellOf coins outpoint := by
  rw [entryOf, entries_find?, cellOf]

theorem entryOf_cons (e : COutPoint × CCoinsCacheEntry)
    (entries : List (COutPoint × CCoinsCacheEntry)) (o : COutPoint) :
    entryOf (e :: entries) o = if o = e.1 then some e.2.version else entryOf entries o := by
  rw [entryOf, List.find?_cons]
  by_cases ho : o = e.1
  · rw [decide_eq_true ho.symm, if_pos ho]
    rfl
  · rw [decide_eq_false fun h => ho h.symm, if_neg ho]
    rfl

theorem entryOf_of_notMem {entries : List (COutPoint × CCoinsCacheEntry)} {o : COutPoint}
    (h : o ∉ entries.map Prod.fst) : entryOf entries o = none := by
  rw [entryOf, Option.map_eq_none_iff, Option.map_eq_none_iff, List.find?_eq_none]
  intro e he hdec
  exact h (List.mem_map.2 ⟨e, he, of_decide_eq_true hdec⟩)

/-- **`BatchWrite` meets no misapplied flag**, and the cache then shows what the one above it
showed. -/
theorem foldlM_batchWriteEntry {entries : List (COutPoint × CCoinsCacheEntry)}
    (hnodup : (entries.map Prod.fst).Nodup) (hsound : ∀ o, Sound (below o) (cellOf coins o))
    (hentries : ∀ o, Sound (shows (below o) (cellOf coins o)) (entryOf entries o)) :
    ∃ coins', entries.foldlM CCoinsViewCache.batchWriteEntry coins = .ok coins' ∧
      ∀ o, Sound (below o) (cellOf coins' o) ∧ shows (below o) (cellOf coins' o) =
        shows (shows (below o) (cellOf coins o)) (entryOf entries o) := by
  induction entries generalizing coins with
  | nil => exact ⟨coins, rfl, fun o => ⟨hsound o, rfl⟩⟩
  | cons e entries ih =>
    rw [List.map_cons, List.nodup_cons] at hnodup
    have hchild : e.2.version.Sound (shows (below e.1) (cellOf coins e.1)) := by
      have h := hentries e.1
      rw [entryOf_cons, if_pos rfl] at h
      exact sound_some.1 h
    obtain ⟨cell', hmerge⟩ := Option.ne_none_iff_exists'.1 (merge_ne_none hchild)
    obtain ⟨coins₁, hround, hcell⟩ := batchWriteEntry_ok hmerge
    have hround_sound : ∀ o, Sound (below o) (cellOf coins₁ o) := by
      intro o
      rw [hcell o]
      split
      · rename_i ho
        rw [ho]
        exact sound_merge (hsound e.1) hchild hmerge
      · exact hsound o
    have hrest : ∀ o, Sound (shows (below o) (cellOf coins₁ o)) (entryOf entries o) := by
      intro o
      by_cases ho : o = e.1
      · rw [ho, entryOf_of_notMem hnodup.1]
        exact sound_none _
      · have h := hentries o
        rw [entryOf_cons, if_neg ho] at h
        rw [hcell o, if_neg ho]
        exact h
    obtain ⟨coins', hfold, hcoins'⟩ := ih hnodup.2 hround_sound hrest
    refine ⟨coins', ?_, fun o => ⟨(hcoins' o).1, ?_⟩⟩
    · rw [List.foldlM_cons, bind_ok]
      exact ⟨coins₁, hround, hfold⟩
    · rw [(hcoins' o).2, hcell o, entryOf_cons]
      by_cases ho : o = e.1
      · rw [if_pos ho, if_pos ho, ho, entryOf_of_notMem hnodup.1, shows_none, shows_some]
        exact shows_merge (hsound e.1) hchild hmerge
      · rw [if_neg ho, if_neg ho]

end Write

/-! ## One operation on the stack -/

section Stack

variable {σ : Type} {V : BaseView σ} {base : σ} {caches caches' : List CCoinsViewCache}
  {cache cache' : CCoinsViewCache} {outpoint : COutPoint}

theorem seenThrough_eq_head (V : BaseView σ) (base : σ) (caches : List CCoinsViewCache) :
    (viewsOf V base caches).head? = some (seenThrough V base caches) := by
  cases caches <;> rfl

theorem seenThrough_congr (h : viewsOf V base caches' = viewsOf V base caches) :
    seenThrough V base caches' = seenThrough V base caches := by
  have hhead := congrArg List.head? h
  rw [seenThrough_eq_head, seenThrough_eq_head] at hhead
  exact Option.some.inj hhead

/-- Some caches with the flags and the views of others. -/
structure SameViews (V : BaseView σ) (base : σ) (caches caches' : List CCoinsViewCache) :
    Prop where
  sound : SoundCaches V base caches'
  views : viewsOf V base caches' = viewsOf V base caches

theorem SameViews.replace (hrest : SameViews V base caches caches') {coins : PlainCoins}
    (hcache : ∀ o, Sound (seenThrough V base caches o) (cellOf cache'.cacheCoins o) ∧
      shows (seenThrough V base caches o) (cellOf cache'.cacheCoins o) = coins o) :
    SoundCaches V base (cache' :: caches') ∧
      viewsOf V base (cache' :: caches') = coins :: viewsOf V base caches := by
  have hsame := seenThrough_congr hrest.views
  refine ⟨⟨fun o => ?_, hrest.sound⟩, ?_⟩
  · rw [hsame]
    exact (hcache o).1
  · rw [viewsOf, hrest.views]
    refine congrArg (· :: _) (funext fun o => ?_)
    rw [seenThrough, hsame]
    exact (hcache o).2

theorem SameViews.cons (hrest : SameViews V base caches caches')
    (hcache : ∀ o, Sound (seenThrough V base caches o) (cellOf cache'.cacheCoins o) ∧
      shows (seenThrough V base caches o) (cellOf cache'.cacheCoins o) =
        shows (seenThrough V base caches o) (cellOf cache.cacheCoins o)) :
    SameViews V base (cache :: caches) (cache' :: caches') := by
  obtain ⟨hsound, hviews⟩ := hrest.replace hcache
  exact ⟨hsound, hviews⟩

theorem SameViews.refl (h : SoundCaches V base caches) : SameViews V base caches caches := ⟨h, rfl⟩

/-- What is asked of the views below a cache: the caches there afterwards, and the answer. -/
def Answers (V : BaseView σ) (base : σ) (outpoint : COutPoint) (caches : List CCoinsViewCache)
    (answer : List CCoinsViewCache × Option Coin) : Prop :=
  SameViews V base caches answer.1 ∧
    answer.2.bind Coin.unspent = seenThrough V base caches outpoint

theorem ask_spec (cache : CCoinsViewCache) {answer : List CCoinsViewCache × Option Coin}
    (hsound : SoundCaches V base caches)
    (hanswer : Answers V base outpoint caches answer) :
    SameViews V base caches
        (if cache.cacheCoins.count outpoint then (caches, none) else answer).1 ∧
      (cache.cacheCoins.find? outpoint = none →
        (if cache.cacheCoins.count outpoint then (caches, none) else answer).2.bind Coin.unspent =
          seenThrough V base caches outpoint) := by
  split
  · rename_i hcount
    refine ⟨.refl hsound, fun hfind => ?_⟩
    rw [count_eq_false.2 hfind] at hcount
    cases hcount
  · exact ⟨hanswer.1, fun _ => hanswer.2⟩

/-- **A lookup shows the coin, and nobody sees that it was made.** -/
theorem getCoin_answers (outpoint : COutPoint) (hsound : SoundCaches V base caches) :
    Answers V base outpoint caches (CoinsStack.getCoin V base outpoint caches) := by
  induction caches with
  | nil => exact ⟨.refl hsound, rfl⟩
  | cons cache caches ih =>
    obtain ⟨hcache, hcaches⟩ := hsound
    obtain ⟨hviews, hbelow⟩ := ask_spec cache hcaches (ih hcaches)
    refine ⟨hviews.cons (fetchCoin_sound hcache hbelow), ?_⟩
    have hentry := fetchCoin_entry hbelow
    rw [seenThrough, ← hentry, CoinsStack.getCoin]
    dsimp only
    rw [Option.bind_assoc]
    simp only [unspent_bind]

/-- **A coin that is spent through the top cache is not seen there any more.** -/
theorem spendCoin_views (outpoint : COutPoint) (hsound : SoundCaches V base (cache :: caches)) :
    SoundCaches V base (CoinsStack.spendCoin V base outpoint (cache :: caches)).1 ∧
      viewsOf V base (CoinsStack.spendCoin V base outpoint (cache :: caches)).1 =
        Function.update (seenThrough V base (cache :: caches)) outpoint none ::
          viewsOf V base caches := by
  obtain ⟨hcache, hcaches⟩ := hsound
  obtain ⟨hviews, hbelow⟩ :=
    ask_spec cache hcaches (getCoin_answers outpoint hcaches)
  have hfetch := fetchCoin_sound hcache hbelow
  have hentry := fetchCoin_entry hbelow
  have hfind := fetchCoin_find? cache outpoint
    (if cache.cacheCoins.count outpoint then (caches, none)
      else CoinsStack.getCoin V base outpoint caches).2
  rw [CoinsStack.spendCoin]
  dsimp only
  split
  · rename_i cache' hnone
    rw [hnone] at hfetch hentry
    refine hviews.replace fun o => ⟨(hfetch o).1, (hfetch o).2.trans ?_⟩
    -- There was no coin to spend.
    by_cases ho : o = outpoint
    · rw [ho, Function.update_self]
      exact hentry.symm
    · rw [Function.update_of_ne ho, seenThrough]
  · rename_i cache' entry hsome
    rw [hsome] at hfetch hfind
    have hspend := spendEntry_sound (fun o => (hfetch o).1) hfind
    refine hviews.replace fun o => ⟨(hspend o).1, (hspend o).2.trans ?_⟩
    have hseen : (fun o => shows (seenThrough V base caches o) (cellOf cache'.cacheCoins o)) =
        seenThrough V base (cache :: caches) := funext fun o => (hfetch o).2
    rw [hseen]

theorem getCoinAt_views (outpoint : COutPoint) (i : ℕ) (hsound : SoundCaches V base caches) :
    SameViews V base caches (CoinsStack.getCoinAt V base outpoint i caches) := by
  induction i generalizing caches with
  | zero =>
    rw [CoinsStack.getCoinAt]
    exact (getCoin_answers outpoint hsound).1
  | succ i ih =>
    cases caches with
    | nil => exact .refl hsound
    | cons cache caches => exact (ih hsound.2).cons fun o => ⟨hsound.1 o, rfl⟩

theorem uncacheAt_views (outpoint : COutPoint) (i : ℕ) (hsound : SoundCaches V base caches) :
    SameViews V base caches (caches.modify i fun cache => cache.uncache outpoint) := by
  induction i generalizing caches with
  | zero =>
    cases caches with
    | nil => exact .refl hsound
    | cons cache caches => exact (SameViews.refl hsound.2).cons (uncache_sound hsound.1)
  | succ i ih =>
    cases caches with
    | nil => exact .refl hsound
    | cons cache caches => exact (ih hsound.2).cons fun o => ⟨hsound.1 o, rfl⟩

/-! ## Flush -/

theorem flushPlain_cons (i : ℕ) (coins : PlainCoins) (plains : List PlainCoins) :
    flushPlain (i + 1) (coins :: plains) = coins :: flushPlain i plains := by
  rw [flushPlain, flushPlain, List.getElem?_cons_succ]
  cases plains[i]? <;> rfl

theorem empty_views (hash : uint256) (hsound : SoundCaches V base caches) :
    SoundCaches V base (⟨∅, hash⟩ :: caches) ∧
      viewsOf V base (⟨∅, hash⟩ :: caches) =
        seenThrough V base caches :: viewsOf V base caches := by
  refine (SameViews.refl hsound).replace fun o => ?_
  rw [cell_eq_none (find?_empty o)]
  exact ⟨sound_none _, rfl⟩

/-- **Flush of one cache into the cache below it.** -/
theorem flush_into {parent : CCoinsViewCache}
    (hsound : SoundCaches V base (cache :: parent :: caches)) :
    ∃ parent', parent.batchWrite cache.cacheCoins cache.hashBlock = .ok parent' ∧
      SoundCaches V base (parent' :: caches) ∧
      viewsOf V base (parent' :: caches) =
        seenThrough V base (cache :: parent :: caches) :: viewsOf V base caches := by
  obtain ⟨hcache, hparent, hcaches⟩ := hsound
  have hentries : ∀ o, Sound (shows (seenThrough V base caches o) (cellOf parent.cacheCoins o))
      (entryOf cache.cacheCoins.entries o) := by
    intro o
    rw [entryOf_entries]
    exact hcache o
  obtain ⟨coins, hfold, hcoins⟩ :=
    foldlM_batchWriteEntry cache.cacheCoins.entries_nodup hparent hentries
  refine ⟨⟨coins, cache.hashBlock⟩, ?_, (SameViews.refl hcaches).replace fun o => ?_⟩
  · rw [CCoinsViewCache.batchWrite, bind_ok]
    exact ⟨coins, hfold, rfl⟩
  · refine ⟨(hcoins o).1, (hcoins o).2.trans ?_⟩
    rw [entryOf_entries]
    rfl

/-- **Flush of the lowest cache into the base.** -/
theorem flush_base (hV : V.Writes) {base' : σ} (hsound : SoundCaches V base [cache])
    (h : V.batchWrite base cache.cacheCoins cache.hashBlock = .ok base') :
    V.seen base' = seenThrough V base [cache] := by
  funext o
  rw [hV base _ _ base' h o, seenThrough, seenThrough]
  cases hfind : cache.cacheCoins.find? o with
  | none => rw [cell_eq_none hfind, shows_none]
  | some entry =>
    have hentry : entry.version.Sound (V.seen base o) := by
      have hcell := hsound.1 o
      rw [cell_of_find? hfind] at hcell
      exact sound_some.1 hcell
    rw [cell_of_find? hfind, shows_some]
    dsimp only
    split
    · rfl
    · rename_i hdirty
      exact (hentry.clean (Bool.eq_false_iff.2 hdirty)).symm

/-- **A flush goes through unless there is no such cache or the base fails.** -/
theorem flushAt_error {i : ℕ} {reason : String} (hsound : SoundCaches V base caches)
    (h : CoinsStack.flushAt V i caches base = .error reason) :
    reason = "no such cache" ∨
      ∃ mapCoins hashBlock, V.batchWrite base mapCoins hashBlock = .error reason := by
  induction i generalizing caches with
  | zero =>
    match caches with
    | [] =>
      cases h
      exact .inl rfl
    | [cache] =>
      refine .inr ⟨cache.cacheCoins, cache.hashBlock, ?_⟩
      rw [CoinsStack.flushAt] at h
      cases hwrite : V.batchWrite base cache.cacheCoins cache.hashBlock with
      | ok base' =>
        rw [hwrite] at h
        cases h
      | error reason' =>
        rw [hwrite] at h
        exact congrArg Except.error (Except.error.inj h)
    | cache :: parent :: caches =>
      obtain ⟨parent', hwrite, -⟩ := flush_into hsound
      rw [CoinsStack.flushAt, hwrite] at h
      cases h
  | succ i ih =>
    cases caches with
    | nil =>
      cases h
      exact .inl rfl
    | cons cache caches =>
      cases hrest : CoinsStack.flushAt V i caches base with
      | ok r =>
        rw [CoinsStack.flushAt, hrest] at h
        cases h
      | error reason' =>
        rw [CoinsStack.flushAt, hrest] at h
        cases h
        exact ih hsound.2 hrest

theorem head?_flushPlain (i : ℕ) (plains : List PlainCoins) :
    (flushPlain i plains).head? = plains.head? := by
  rw [flushPlain]
  cases plains with
  | nil => rfl
  | cons coins plains => cases (coins :: plains)[i]? <;> rfl

theorem seenThrough_of_flushPlain {i : ℕ} {base' : σ}
    (h : viewsOf V base' caches' = flushPlain i (viewsOf V base caches)) :
    seenThrough V base' caches' = seenThrough V base caches := by
  have hhead := congrArg List.head? h
  rw [head?_flushPlain, seenThrough_eq_head, seenThrough_eq_head] at hhead
  exact Option.some.inj hhead

/-- **A flush copies a view over the one below it, and no other view changes.** -/
theorem flushAt_views (hV : V.Writes) {i : ℕ} {base' : σ} (hsound : SoundCaches V base caches)
    (h : CoinsStack.flushAt V i caches base = .ok (caches', base')) :
    SoundCaches V base' caches' ∧
      viewsOf V base' caches' = flushPlain i (viewsOf V base caches) := by
  induction i generalizing caches caches' with
  | zero =>
    match caches with
    | [] => cases h
    | [cache] =>
      rw [CoinsStack.flushAt, bind_ok] at h
      obtain ⟨base₁, hwrite, h⟩ := h
      cases h
      have hseen := flush_base hV hsound hwrite
      have hbase : SoundCaches V base' [] := trivial
      obtain ⟨hempty, hviews⟩ := empty_views cache.hashBlock hbase
      refine ⟨hempty, hviews.trans ?_⟩
      have hplain : seenThrough V base' [] = V.seen base' := rfl
      rw [viewsOf, viewsOf, hplain, hseen]
      rfl
    | cache :: parent :: caches =>
      obtain ⟨parent', hwrite, hparent, hviews⟩ := flush_into hsound
      rw [CoinsStack.flushAt, hwrite] at h
      cases h
      obtain ⟨hempty, hempty_views⟩ := empty_views cache.hashBlock hparent
      refine ⟨hempty, hempty_views.trans ?_⟩
      have hhead := seenThrough_eq_head V base (parent' :: caches)
      rw [hviews] at hhead
      rw [← Option.some.inj hhead, hviews]
      rfl
  | succ i ih =>
    cases caches with
    | nil => cases h
    | cons cache caches =>
      rw [CoinsStack.flushAt, bind_ok] at h
      obtain ⟨⟨caches₁, base₁⟩, hrest, h⟩ := h
      cases h
      obtain ⟨hcaches, hviews⟩ := ih hsound.2 hrest
      have hseen := seenThrough_of_flushPlain hviews
      have htop : seenThrough V base' (cache :: caches₁) =
          seenThrough V base (cache :: caches) := by
        funext o
        rw [seenThrough, seenThrough, hseen]
      refine ⟨⟨?_, hcaches⟩, ?_⟩
      · rw [hseen]
        exact hsound.1
      · rw [viewsOf, viewsOf, flushPlain_cons, hviews, htop]

end Stack

/-! ## Runs -/

section Runs

variable {σ : Type} {V : BaseView σ} {s s' : CoinsStack σ} {op : CoinsOperation}

/-- **One operation does to the views what it does to plain maps.** -/
theorem perform_views (hV : V.Writes) (hsound : SoundCaches V s.base s.caches)
    (hallowed : op.Allowed (s.seen V)) (h : s.perform V op = .ok s') :
    SoundCaches V s'.base s'.caches ∧ s'.views V = op.onPlain (s.views V) := by
  obtain ⟨caches, base⟩ := s
  cases op with
  | addCoin outpoint coin possible_overwrite =>
    cases caches with
    | nil => cases h
    | cons cache caches =>
      rw [CoinsStack.perform, bind_ok] at h
      obtain ⟨cache', hadd, h⟩ := h
      cases h
      have hcell := addCoin_sound hsound.1 hallowed hadd
      obtain ⟨hsound', hviews⟩ := (SameViews.refl hsound.2).replace hcell
      refine ⟨hsound', hviews.trans ?_⟩
      rw [CoinsOperation.onPlain]
      split <;> rfl
  | spendCoin outpoint =>
    cases caches with
    | nil => cases h
    | cons cache caches =>
      cases h
      exact spendCoin_views outpoint hsound
  | setBestBlock hashBlock =>
    cases h
    cases caches with
    | nil => exact ⟨hsound, rfl⟩
    | cons cache caches => exact ⟨hsound, rfl⟩
  | getCoin i outpoint =>
    cases h
    have hsame := getCoinAt_views outpoint i hsound
    exact ⟨hsame.sound, hsame.views⟩
  | uncache i outpoint =>
    cases h
    have hsame := uncacheAt_views outpoint i hsound
    exact ⟨hsame.sound, hsame.views⟩
  | flush i =>
    rw [CoinsStack.perform, bind_ok] at h
    obtain ⟨⟨caches', base'⟩, hflush, h⟩ := h
    cases h
    exact flushAt_views hV hsound hflush
  | push =>
    cases h
    obtain ⟨hempty, hviews⟩ := empty_views 0 hsound
    refine ⟨hempty, hviews.trans ?_⟩
    rw [CoinsOperation.onPlain, CoinsStack.views, seenThrough_eq_head]
    rfl
  | pop =>
    cases caches with
    | nil => cases h
    | cons cache caches =>
      cases h
      exact ⟨hsound.2, rfl⟩

/-- **An operation ends with an error only where there is no cache for it, where a spent coin is
added, or where the base fails.** -/
theorem perform_error {reason : String} (hsound : SoundCaches V s.base s.caches)
    (hallowed : op.Allowed (s.seen V)) (h : s.perform V op = .error reason) :
    reason = "no such cache" ∨ reason = "assert(!coin.IsSpent())" ∨
      ∃ mapCoins hashBlock, V.batchWrite s.base mapCoins hashBlock = .error reason := by
  obtain ⟨caches, base⟩ := s
  cases op with
  | addCoin outpoint coin possible_overwrite =>
    cases caches with
    | nil =>
      cases h
      exact .inl rfl
    | cons cache caches =>
      rcases Bool.eq_false_or_eq_true coin.isSpent with hspent | hspent
      · rw [CoinsStack.perform] at h
        dsimp only at h
        rw [addCoin_of_isSpent hspent] at h
        cases h
        exact .inr (.inl rfl)
      · obtain ⟨cache', hadd⟩ := addCoin_ok (seenThrough V base caches) hspent hallowed
        rw [CoinsStack.perform] at h
        dsimp only at h
        rw [hadd] at h
        cases h
  | spendCoin outpoint =>
    cases caches <;> cases h
    exact .inl rfl
  | flush i =>
    cases hflush : CoinsStack.flushAt V i caches base with
    | ok r =>
      rw [CoinsStack.perform, hflush] at h
      cases h
    | error reason' =>
      rw [CoinsStack.perform, hflush] at h
      cases h
      rcases flushAt_error hsound hflush with hnone | hwrite
      · exact .inl hnone
      · exact .inr (.inr hwrite)
  | pop =>
    cases caches <;> cases h
    exact .inl rfl
  | setBestBlock hashBlock => cases h
  | getCoin i outpoint => cases h
  | uncache i outpoint => cases h
  | push => cases h

theorem perform_of_step (h : (coinsStack V).step s op = some s') : s.perform V op = .ok s' := by
  rw [coinsStack] at h
  dsimp only at h
  cases hperform : s.perform V op with
  | ok t =>
    rw [hperform] at h
    exact congrArg Except.ok (Option.some.inj h)
  | error reason =>
    rw [hperform] at h
    cases h

theorem coinsStack_history (hV : V.Writes) {base : σ} {ops : List CoinsOperation}
    (hallowed : (coinsStack V).Along (fun s op => op.Allowed (s.seen V)) ⟨[], base⟩ ops)
    (h : (coinsStack V).exec ⟨[], base⟩ ops = some s) :
    SoundCaches V s.base s.caches ∧
      s.views V = ops.foldl CoinsOperation.onPlain [V.seen base] := by
  have hstart : SoundCaches V base [] ∧
      viewsOf V base [] = [].foldl CoinsOperation.onPlain [V.seen base] := ⟨trivial, rfl⟩
  refine Machine.exec_history
    (H := fun past t => SoundCaches V t.base t.caches ∧
      t.views V = past.foldl CoinsOperation.onPlain [V.seen base])
    (fun past t op t' hpast hop hstep => ?_) hstart hallowed h
  have hok : t.perform V op = .ok t' := perform_of_step hstep
  obtain ⟨hsound, hviews⟩ := perform_views hV hpast.1 hop hok
  rw [List.foldl_append, ← hpast.2]
  exact ⟨hsound, hviews⟩

/-- **A stack of caches is a stack of plain maps.**  After any operations, each view of the stack
shows what the operations make of plain maps, where a flush copies a map over the one below it.  A
flush changes nothing that is seen through the top cache, and no cache fails on its own. -/
theorem coinsStack_views (hV : V.Writes) {base : σ} {ops : List CoinsOperation}
    (hallowed : (coinsStack V).Along (fun s op => op.Allowed (s.seen V)) ⟨[], base⟩ ops)
    (h : (coinsStack V).exec ⟨[], base⟩ ops = some s) :
    s.views V = ops.foldl CoinsOperation.onPlain [V.seen base] ∧
    (∀ i s', s.perform V (.flush i) = .ok s' → s'.seen V = s.seen V) ∧
    (∀ op reason, op.Allowed (s.seen V) → s.perform V op = .error reason →
      reason = "no such cache" ∨ reason = "assert(!coin.IsSpent())" ∨
        ∃ mapCoins hashBlock, V.batchWrite s.base mapCoins hashBlock = .error reason) := by
  obtain ⟨hsound, hviews⟩ := coinsStack_history hV hallowed h
  refine ⟨hviews, fun i s' hflush => ?_, fun op reason hop => perform_error hsound hop⟩
  rw [CoinsStack.perform, bind_ok] at hflush
  obtain ⟨⟨caches', base'⟩, hflush, hs'⟩ := hflush
  cases hs'
  exact seenThrough_of_flushPlain (flushAt_views hV hsound hflush).2

end Runs

section OneMap

variable {σ : Type} {V : BaseView σ} {base : σ} {cache : CCoinsViewCache}
  {caches : List CCoinsViewCache} {view view' : CCoinsView} {outpoint : COutPoint} {coin : Coin}
  {possible_overwrite : Bool}

/-- **An addition to the one map of coins is the addition through the caches.** -/
theorem addCoin_refines (hsound : SoundCaches V base (cache :: caches))
    (hview : ∀ o, seenThrough V base (cache :: caches) o = view.find? o)
    (h : view.addCoin outpoint coin possible_overwrite = .ok view') :
    ∃ cache', cache.addCoin outpoint coin possible_overwrite = .ok cache' ∧
      SoundCaches V base (cache' :: caches) ∧
      ∀ o, seenThrough V base (cache' :: caches) o = view'.find? o := by
  rw [CCoinsView.addCoin, require_bind] at h
  obtain ⟨hvalue, h⟩ := h
  have hspent : coin.isSpent = false := by
    rw [Coin.isSpent, ← Bool.not_eq_true']
    exact hvalue
  by_cases hspendable : coin.out.scriptPubKey.isUnspendable = true
  · rw [if_pos hspendable] at h
    cases h
    refine ⟨cache, ?_, hsound, hview⟩
    rw [CCoinsViewCache.addCoin, require_bind, if_pos hspendable, hspent]
    exact ⟨rfl, rfl⟩
  · rw [if_neg hspendable, require_bind] at h
    obtain ⟨hfree, h⟩ := h
    cases h
    have hallowed : possible_overwrite = false →
        shows (seenThrough V base caches outpoint) (cellOf cache.cacheCoins outpoint) = none := by
      intro hno
      rw [hno, Bool.false_or, Bool.not_eq_true'] at hfree
      exact (hview outpoint).trans (count_eq_false.1 hfree)
    obtain ⟨cache', hadd⟩ := addCoin_ok (seenThrough V base caches) hspent hallowed
    have hcell := addCoin_sound hsound.1 hallowed hadd
    refine ⟨cache', hadd, ⟨fun o => (hcell o).1, hsound.2⟩, fun o => ?_⟩
    rw [seenThrough, (hcell o).2, if_neg hspendable, find?_assign]
    by_cases ho : o = outpoint
    · rw [ho, Function.update_self, if_pos rfl]
    · rw [Function.update_of_ne ho, if_neg ho]
      exact hview o

/-- **A coin that is spent in the one map is spent through the caches.** -/
theorem spendCoin_refines (env : Env) (hsound : SoundCaches V base (cache :: caches))
    (hview : ∀ o, seenThrough V base (cache :: caches) o = view.find? o) :
    ∀ o, seenThrough V base (CoinsStack.spendCoin V base outpoint (cache :: caches)).1 o =
      (view.spendCoin env outpoint).1.find? o := by
  intro o
  obtain ⟨-, hviews⟩ := spendCoin_views outpoint hsound
  have hhead := congrArg List.head? hviews
  rw [seenThrough_eq_head] at hhead
  rw [Option.some.inj hhead, CCoinsView.spendCoin]
  by_cases ho : o = outpoint
  · rw [ho, Function.update_self]
    split
    · rename_i hnone
      exact hnone.symm
    · exact (find?_erase_self view outpoint).symm
  · rw [Function.update_of_ne ho, hview o]
    split
    · rfl
    · exact (find?_erase_ne ho).symm

end OneMap

/-! ## The coin database -/

/-- `CCoinsViewDB`: the coins and the block they are of. -/
structure CCoinsViewDB where
  coins : CCoinsView
  hashBestBlock : uint256

/-- `CCoinsViewDB::BatchWrite`, on one entry. -/
def CCoinsViewDB.writeEntry (coins : CCoinsView) (it : COutPoint × CCoinsCacheEntry) : CCoinsView :=
  if it.2.dirty then
    if it.2.coin.isSpent then coins.erase it.1 else coins.assign it.1 it.2.coin
  else coins

def coinsViewDB : BaseView CCoinsViewDB where
  getCoin db outpoint := db.coins.find? outpoint
  batchWrite db mapCoins hashBlock := do
    require (hashBlock != 0) "assert(!hashBlock.IsNull())"
    return ⟨mapCoins.entries.foldl CCoinsViewDB.writeEntry db.coins, hashBlock⟩

def writtenValue (old : Option Coin) : Option CCoinsCacheEntry → Option Coin
  | some entry => if entry.dirty then entry.coin.unspent else old
  | none => old

theorem find?_writeEntry (coins : CCoinsView) (it : COutPoint × CCoinsCacheEntry) (o : COutPoint) :
    (CCoinsViewDB.writeEntry coins it).find? o =
      if o = it.1 then writtenValue (coins.find? o) (some it.2) else coins.find? o := by
  rw [CCoinsViewDB.writeEntry, writtenValue]
  by_cases ho : o = it.1
  · rw [if_pos ho, Coin.unspent]
    split
    · split
      · rw [ho, find?_erase_self]
      · rw [ho, find?_assign_self]
    · rfl
  · rw [if_neg ho]
    split
    · split
      · rw [find?_erase_ne ho]
      · rw [find?_assign_ne ho]
    · rfl

theorem find?_foldl_writeEntry {entries : List (COutPoint × CCoinsCacheEntry)}
    (hnodup : (entries.map Prod.fst).Nodup) (coins : CCoinsView) (o : COutPoint) :
    (entries.foldl CCoinsViewDB.writeEntry coins).find? o =
      writtenValue (coins.find? o)
        ((entries.find? fun e => decide (e.1 = o)).map Prod.snd) := by
  rw [read_foldl (fun coins : CCoinsView => coins.find? o) (fun entry old =>
    writtenValue old (some entry)) (fun coins it => find?_writeEntry coins it o) hnodup]
  cases (entries.find? fun e => decide (e.1 = o)).map Prod.snd <;> rfl

theorem coinsViewDB_writes : coinsViewDB.Writes := by
  intro db mapCoins hashBlock db' h o
  rw [coinsViewDB, require_bind] at h
  obtain ⟨-, h⟩ := h
  cases h
  rw [BaseView.seen, coinsViewDB]
  dsimp only
  rw [find?_foldl_writeEntry mapCoins.entries_nodup, entries_find?]
  cases mapCoins.find? o with
  | none => rfl
  | some entry =>
    rw [writtenValue]
    dsimp only
    split
    · exact unspent_bind entry.coin
    · rfl

/-! ### Sample runs -/

def sampleOutpoint : COutPoint := ⟨1, 0⟩

def sampleCoin : Coin := ⟨⟨COIN, getScriptForKeyID (List.replicate 20 1)⟩, false, 7⟩

/-- A coin is added through two caches, flushed into the lower one, spent there and flushed to
the database. -/
def sampleOperations : List CoinsOperation :=
  [.push, .push, .setBestBlock 5, .addCoin sampleOutpoint sampleCoin false, .flush 0,
    .getCoin 0 sampleOutpoint, .uncache 0 sampleOutpoint, .spendCoin sampleOutpoint, .flush 0,
    .flush 1]

theorem sampleOperations_views : ∃ s,
    (coinsStack coinsViewDB).exec ⟨[], ⟨∅, 0⟩⟩ sampleOperations = some s ∧
    s.views coinsViewDB =
      sampleOperations.foldl CoinsOperation.onPlain [coinsViewDB.seen ⟨∅, 0⟩] := by
  have hsome : ((coinsStack coinsViewDB).exec ⟨[], ⟨∅, 0⟩⟩ sampleOperations).isSome = true := by
    decide +kernel
  obtain ⟨s, hs⟩ := Option.isSome_iff_exists.1 hsome
  have hallowed : (coinsStack coinsViewDB).Along (fun s op => op.Allowed (s.seen coinsViewDB))
      ⟨[], ⟨∅, 0⟩⟩ sampleOperations := by
    refine ⟨trivial, fun s₁ h₁ => ?_⟩
    cases h₁
    refine ⟨trivial, fun s₂ h₂ => ?_⟩
    cases h₂
    refine ⟨trivial, fun s₃ h₃ => ?_⟩
    cases h₃
    refine ⟨fun _ => rfl, fun s₄ _ => Machine.Along.of_forall ?_⟩
    intro op hop t
    simp only [List.mem_cons, List.not_mem_nil, or_false] at hop
    rcases hop with rfl | rfl | rfl | rfl | rfl | rfl <;> trivial
  exact ⟨s, hs, (coinsStack_views coinsViewDB_writes hallowed hs).1⟩

def burntCoin : Coin := ⟨⟨COIN, [OP_RETURN]⟩, false, 7⟩

/-- **The addition of a coin that cannot be spent leaves no coin.** -/
theorem burntCoin_unseen : ∃ s,
    (coinsStack coinsViewDB).exec ⟨[], ⟨∅, 0⟩⟩ [.push, .addCoin sampleOutpoint burntCoin false] =
      some s ∧
    s.seen coinsViewDB ≠
      Function.update (coinsViewDB.seen ⟨∅, 0⟩) sampleOutpoint (some burntCoin) := by
  refine ⟨⟨[.empty], ⟨∅, 0⟩⟩, rfl, fun h => ?_⟩
  have hpoint := congrFun h sampleOutpoint
  rw [Function.update_self] at hpoint
  cases hpoint

end UnemployCoin
