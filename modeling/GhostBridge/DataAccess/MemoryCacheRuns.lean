import GhostBridge.DataAccess.MemoryCache
import Mathlib.Algebra.BigOperators.Group.List.Basic

/-!
# What the memory cache represents

Entries, tag index and byte count agree after every operation, and neither count exceeds its limit.
-/

namespace Ecma.OrderedMap

variable {κ α : Type} [DecidableEq κ]

theorem mem_delete {m : OrderedMap κ α} {key : κ} {e : κ × α} :
    e ∈ (m.delete key).entries ↔ e ∈ m.entries ∧ e.1 ≠ key := by
  simp [delete, filter]

theorem nodup_entries (m : OrderedMap κ α) : m.entries.Nodup := m.nodup_keys.of_map

theorem delete_of_get?_none {m : OrderedMap κ α} {key : κ} (h : m.get? key = none) :
    m.delete key = m := by
  obtain ⟨entries, distinct⟩ := m
  have hne : ∀ e ∈ entries, (!(e.1 == key)) = true := by
    intro e he
    by_contra hkey
    have hsome : (OrderedMap.mk entries distinct).get? e.1 = some e.2 := get?_eq_some.mpr he
    simp only [Bool.not_eq_true', beq_eq_false_iff_ne, ne_eq, not_not] at hkey
    rw [hkey, h] at hsome
    cases hsome
  simp only [delete, filter, mk.injEq]
  exact List.filter_eq_self.mpr hne

theorem set_of_get?_none {m : OrderedMap κ α} {key : κ} (h : m.get? key = none) (value : α) :
    (m.set key value).entries = m.entries ++ [(key, value)] := by
  have hhas : m.has key ≠ true := by simp [has_eq_isSome, h]
  rw [set, dif_neg hhas]

theorem perm_delete {m : OrderedMap κ α} {key : κ} {value : α} (h : m.get? key = some value) :
    m.entries.Perm ((key, value) :: (m.delete key).entries) := by
  apply (List.perm_ext_iff_of_nodup m.nodup_entries _).mpr
  · intro e
    rw [List.mem_cons, mem_delete]
    constructor
    · intro he
      by_cases hkey : e.1 = key
      · left
        have hsame : m.get? e.1 = some e.2 := get?_eq_some.mpr he
        rw [hkey, h, Option.some.injEq] at hsame
        exact Prod.ext hkey hsame.symm
      · exact .inr ⟨he, hkey⟩
    · intro he
      rcases he with rfl | ⟨he, -⟩
      · exact get?_eq_some.mp h
      · exact he
  · apply List.nodup_cons.mpr
    refine ⟨?_, (m.delete key).nodup_entries⟩
    intro hmem
    exact (mem_delete.mp hmem).2 rfl

theorem keys_delete_head {m : OrderedMap κ α} {key : κ} {rest : List κ}
    (h : m.entries.map Prod.fst = key :: rest) :
    (m.delete key).entries.map Prod.fst = rest := by
  have hnodup := m.nodup_keys
  obtain ⟨entries, distinct⟩ := m
  simp only at h hnodup
  cases entries with
  | nil => cases h
  | cons e es =>
    obtain ⟨rfl, rfl⟩ := List.cons.inj h
    have hnot := (List.nodup_cons.mp hnodup).1
    simp only [delete, filter]
    rw [List.filter_cons_of_neg (by simp), List.filter_eq_self.mpr]
    intro f hf
    simp only [Bool.not_eq_true', beq_eq_false_iff_ne]
    intro heq
    exact hnot (heq ▸ List.mem_map_of_mem hf)

end Ecma.OrderedMap

namespace GhostBridge.DataAccess

open Ecma

variable {κ : Type}

def Lists (tags : OrderedMap Text (List κ)) (tag : Text) (key : κ) : Prop :=
  ∃ keys, tags.get? tag = some keys ∧ key ∈ keys

structure IsIndex (tags : OrderedMap Text (List κ)) : Prop where
  nonempty : ∀ tag keys, tags.get? tag = some keys → keys ≠ []
  nodup : ∀ tag keys, tags.get? tag = some keys → keys.Nodup

theorem lists_of_get? {tags : OrderedMap Text (List κ)} {tag : Text} {keys : List κ} {key : κ}
    (h : tags.get? tag = some keys) : Lists tags tag key ↔ key ∈ keys := by
  simp [Lists, h]

theorem isIndex_set {tags : OrderedMap Text (List κ)} (h : IsIndex tags) (tag : Text)
    {keys : List κ} (hne : keys ≠ []) (hnodup : keys.Nodup) : IsIndex (tags.set tag keys) := by
  constructor
  · intro other others hget
    by_cases heq : other = tag
    · subst heq
      rw [OrderedMap.get?_set_self, Option.some.injEq] at hget
      exact hget ▸ hne
    · rw [OrderedMap.get?_set_of_ne _ heq] at hget
      exact h.nonempty other others hget
  · intro other others hget
    by_cases heq : other = tag
    · subst heq
      rw [OrderedMap.get?_set_self, Option.some.injEq] at hget
      exact hget ▸ hnodup
    · rw [OrderedMap.get?_set_of_ne _ heq] at hget
      exact h.nodup other others hget

theorem lists_set {tags : OrderedMap Text (List κ)} {tag other : Text} {keys : List κ} {key : κ} :
    Lists (tags.set tag keys) other key ↔
      (other = tag ∧ key ∈ keys) ∨ (other ≠ tag ∧ Lists tags other key) := by
  by_cases heq : other = tag
  · subst heq
    simp [Lists, OrderedMap.get?_set_self]
  · simp [Lists, OrderedMap.get?_set_of_ne, heq]

theorem lists_delete {tags : OrderedMap Text (List κ)} {tag other : Text} {key : κ} :
    Lists (tags.delete tag) other key ↔ other ≠ tag ∧ Lists tags other key := by
  by_cases heq : other = tag
  · subst heq
    simp [Lists, OrderedMap.get?_delete_self]
  · simp [Lists, OrderedMap.get?_delete_of_ne, heq]

theorem isIndex_delete {tags : OrderedMap Text (List κ)} (h : IsIndex tags) (tag : Text) :
    IsIndex (tags.delete tag) := by
  constructor
  all_goals
    intro other keys hget
    have hne : other ≠ tag := by
      intro heq
      subst heq
      rw [OrderedMap.get?_delete_self] at hget
      cases hget
    rw [OrderedMap.get?_delete_of_ne _ hne] at hget
  · exact h.nonempty other keys hget
  · exact h.nodup other keys hget

variable [DecidableEq κ]

theorem isIndex_unlink {tags : OrderedMap Text (List κ)} (h : IsIndex tags) (key : κ) (tag : Text) :
    IsIndex (unlink key tags tag) := by
  unfold unlink
  split
  · exact h
  · next keys hget =>
    split
    · exact isIndex_delete h tag
    · next hne =>
      apply isIndex_set h tag (by simpa using hne)
      exact (h.nodup tag keys hget).erase key

theorem lists_unlink {tags : OrderedMap Text (List κ)} (h : IsIndex tags) {key other : κ}
    {tag otherTag : Text} :
    Lists (unlink key tags tag) otherTag other ↔
      Lists tags otherTag other ∧ ¬(otherTag = tag ∧ other = key) := by
  unfold unlink
  cases hget : tags.get? tag with
  | none =>
    simp only
    constructor
    · intro hlists
      refine ⟨hlists, ?_⟩
      rintro ⟨rfl, -⟩
      obtain ⟨keys, hkeys, -⟩ := hlists
      rw [hget] at hkeys
      cases hkeys
    · exact And.left
  | some keys =>
    have hmem : other ∈ keys.erase key ↔ other ≠ key ∧ other ∈ keys :=
      (h.nodup tag keys hget).mem_erase_iff
    simp only
    by_cases hempty : (keys.erase key).isEmpty = true
    · rw [if_pos hempty, lists_delete]
      rw [List.isEmpty_iff] at hempty
      rw [hempty] at hmem
      by_cases heq : otherTag = tag
      · subst heq
        rw [lists_of_get? hget]
        simp at hmem ⊢
        tauto
      · simp [heq]
    · rw [if_neg hempty, lists_set, hmem]
      by_cases heq : otherTag = tag
      · subst heq
        rw [lists_of_get? hget]
        simp
        tauto
      · simp [heq]

theorem foldl_unlink (key : κ) (removed : List Text) {tags : OrderedMap Text (List κ)}
    (h : IsIndex tags) :
    IsIndex (removed.foldl (unlink key) tags) ∧
      ∀ tag other, Lists (removed.foldl (unlink key) tags) tag other ↔
        Lists tags tag other ∧ ¬(tag ∈ removed ∧ other = key) := by
  induction removed generalizing tags with
  | nil => simp [h]
  | cons first removed ih =>
    obtain ⟨hindex, hlists⟩ := ih (isIndex_unlink h key first)
    refine ⟨hindex, ?_⟩
    intro tag other
    rw [List.foldl_cons, hlists, lists_unlink h, List.mem_cons]
    tauto

theorem isIndex_link {tags : OrderedMap Text (List κ)} (h : IsIndex tags) (key : κ) (tag : Text) :
    IsIndex (link key tags tag) := by
  have hnodup : ((tags.get? tag).getD []).Nodup := by
    cases hget : tags.get? tag with
    | none => exact .nil
    | some keys => exact h.nodup tag keys hget
  apply isIndex_set h tag
  · split
    · next hmem => exact List.ne_nil_of_mem hmem
    · simp
  · split
    · exact hnodup
    · next hmem =>
      rw [← List.concat_eq_append]
      exact hnodup.concat hmem

theorem lists_link {tags : OrderedMap Text (List κ)} {key other : κ} {tag otherTag : Text} :
    Lists (link key tags tag) otherTag other ↔
      Lists tags otherTag other ∨ (otherTag = tag ∧ other = key) := by
  have hmem : Lists tags tag other ↔ other ∈ (tags.get? tag).getD [] := by
    cases hget : tags.get? tag <;> simp [Lists, hget]
  unfold link
  rw [lists_set]
  by_cases heq : otherTag = tag
  · subst heq
    rw [hmem]
    split
    · next h =>
      simp only [true_and, ne_eq, not_true_eq_false, false_and, or_false]
      constructor
      · exact Or.inl
      · rintro (hin | rfl)
        · exact hin
        · exact h
    · simp
  · simp [heq]

theorem foldl_link (key : κ) (added : List Text) {tags : OrderedMap Text (List κ)}
    (h : IsIndex tags) :
    IsIndex (added.foldl (link key) tags) ∧
      ∀ tag other, Lists (added.foldl (link key) tags) tag other ↔
        Lists tags tag other ∨ (tag ∈ added ∧ other = key) := by
  induction added generalizing tags with
  | nil => simp [h]
  | cons first added ih =>
    obtain ⟨hindex, hlists⟩ := ih (isIndex_link h key first)
    refine ⟨hindex, ?_⟩
    intro tag other
    rw [List.foldl_cons, hlists, lists_link, List.mem_cons]
    tauto

variable {keyText : κ → Text} {limits : CacheLimits}

structure Represents (keyText : κ → Text) (cache : MemoryCache κ) : Prop where
  bytes : ∀ e ∈ cache.entries.entries, e.2.bytes = entryBytes keyText e.1 e.2.value
  total : cache.totalBytes = (cache.entries.entries.map fun e => (e.2.bytes : ℤ)).sum
  index : IsIndex cache.tags
  listed : ∀ tag key, Lists cache.tags tag key ↔
    ∃ entry, cache.entries.get? key = some entry ∧ tag ∈ entry.tags

theorem Represents.new : Represents keyText (newCache : MemoryCache κ) where
  bytes := by intro e he; cases he
  total := rfl
  index := by
    constructor
    all_goals
      intro tag keys h
      cases h
  listed := by simp [Lists, newCache, OrderedMap.get?, OrderedMap.empty]

theorem sum_delete {entries : OrderedMap κ CacheEntry} {key : κ} {entry : CacheEntry}
    (h : entries.get? key = some entry) :
    (entries.entries.map fun e => (e.2.bytes : ℤ)).sum =
      entry.bytes + ((entries.delete key).entries.map fun e => (e.2.bytes : ℤ)).sum := by
  rw [((OrderedMap.perm_delete h).map fun e => (e.2.bytes : ℤ)).sum_eq]
  rfl

namespace MemoryCache

theorem remove_entries (cache : MemoryCache κ) (key : κ) :
    (cache.remove key).entries = cache.entries.delete key := by
  unfold remove
  split
  · next h => exact (OrderedMap.delete_of_get?_none h).symm
  · rfl

theorem get?_remove (cache : MemoryCache κ) (key other : κ) :
    (cache.remove key).entries.get? other =
      if other = key then none else cache.entries.get? other := by
  rw [remove_entries]
  split
  · next h => rw [h, OrderedMap.get?_delete_self]
  · next h => rw [OrderedMap.get?_delete_of_ne _ h]

theorem represents_remove {cache : MemoryCache κ} (h : Represents keyText cache) (key : κ) :
    Represents keyText (cache.remove key) := by
  have hentries := remove_entries cache key
  have hget := get?_remove cache key
  cases hkey : cache.entries.get? key with
  | none =>
    have hsame : cache.remove key = cache := by simp [remove, hkey]
    rw [hsame]
    exact h
  | some entry =>
    have htags : (cache.remove key).tags = entry.tags.foldl (unlink key) cache.tags := by
      simp [remove, hkey]
    have htotal : (cache.remove key).totalBytes = cache.totalBytes - entry.bytes := by
      simp [remove, hkey]
    obtain ⟨hindex, hlists⟩ := foldl_unlink key entry.tags h.index
    refine ⟨?_, ?_, htags ▸ hindex, ?_⟩
    · intro e he
      rw [hentries] at he
      exact h.bytes e (OrderedMap.mem_delete.mp he).1
    · rw [htotal, hentries, h.total, sum_delete hkey]
      omega
    · intro tag other
      rw [htags, hlists, h.listed, hget]
      by_cases heq : other = key
      · subst heq
        simp [hkey]
      · simp [heq]

theorem remove_le {cache : MemoryCache κ} (h : Represents keyText cache) (key : κ) :
    (cache.remove key).entries.size ≤ cache.entries.size ∧
      (cache.remove key).totalBytes ≤ cache.totalBytes := by
  constructor
  · rw [remove_entries]
    exact OrderedMap.size_filter_le _ _
  · rw [(represents_remove h key).total, h.total, remove_entries]
    cases hkey : cache.entries.get? key with
    | none => rw [OrderedMap.delete_of_get?_none hkey]
    | some entry =>
      rw [sum_delete hkey]
      omega

theorem represents_insert {cache : MemoryCache κ} (h : Represents keyText cache) {key : κ}
    (hnew : cache.entries.get? key = none) {entry : CacheEntry}
    (hbytes : entry.bytes = entryBytes keyText key entry.value) :
    Represents keyText (cache.insert key entry) := by
  have hentries : (cache.insert key entry).entries.entries =
      cache.entries.entries ++ [(key, entry)] := OrderedMap.set_of_get?_none hnew entry
  obtain ⟨hindex, hlists⟩ := foldl_link key entry.tags h.index
  refine ⟨?_, ?_, hindex, ?_⟩
  · intro e he
    rw [hentries] at he
    rcases List.mem_append.mp he with he | he
    · exact h.bytes e he
    · rw [List.mem_singleton.mp he]
      exact hbytes
  · rw [hentries, List.map_append, List.sum_append, ← h.total]
    simp [insert]
  · intro tag other
    change Lists (entry.tags.foldl (link key) cache.tags) tag other ↔
      ∃ found, (cache.entries.set key entry).get? other = some found ∧ tag ∈ found.tags
    rw [hlists, h.listed]
    by_cases heq : other = key
    · subst heq
      simp [hnew, OrderedMap.get?_set_self]
    · simp [heq, OrderedMap.get?_set_of_ne]

theorem represents_touch {cache : MemoryCache κ} (h : Represents keyText cache) {key : κ}
    {entry : CacheEntry} (hkey : cache.entries.get? key = some entry) :
    Represents keyText (cache.touch key entry) := by
  have hentries : (cache.touch key entry).entries.entries =
      (cache.entries.delete key).entries ++ [(key, entry)] :=
    OrderedMap.set_of_get?_none (OrderedMap.get?_delete_self _ _) entry
  refine ⟨?_, ?_, h.index, ?_⟩
  · intro e he
    rw [hentries] at he
    rcases List.mem_append.mp he with he | he
    · exact h.bytes e (OrderedMap.mem_delete.mp he).1
    · rw [List.mem_singleton.mp he]
      exact h.bytes _ (OrderedMap.get?_eq_some.mp hkey)
  · rw [hentries, List.map_append, List.sum_append]
    change cache.totalBytes = _
    rw [h.total, sum_delete hkey]
    simp [add_comm]
  · intro tag other
    change Lists cache.tags tag other ↔
      ∃ found, ((cache.entries.delete key).set key entry).get? other = some found ∧ tag ∈ found.tags
    rw [h.listed]
    by_cases heq : other = key
    · subst heq
      rw [hkey, OrderedMap.get?_set_self]
    · rw [OrderedMap.get?_set_of_ne _ heq, OrderedMap.get?_delete_of_ne _ heq]

theorem size_touch {cache : MemoryCache κ} {key : κ} {entry : CacheEntry}
    (hkey : cache.entries.get? key = some entry) :
    (cache.touch key entry).entries.size = cache.entries.size := by
  have hentries : (cache.touch key entry).entries.entries =
      (cache.entries.delete key).entries ++ [(key, entry)] :=
    OrderedMap.set_of_get?_none (OrderedMap.get?_delete_self _ _) entry
  rw [OrderedMap.size, OrderedMap.size, hentries, (OrderedMap.perm_delete hkey).length_eq,
    List.length_append]
  rfl

end MemoryCache

theorem exceeds_mono {count other : ℤ} (hle : count ≤ other) {limit : Option ℚ}
    (h : exceeds other limit = false) : exceeds count limit = false := by
  simp only [exceeds, Option.any_eq_false, decide_eq_false_iff_not, not_lt] at h ⊢
  intro l hl
  exact le_trans (by exact_mod_cast hle) (h l hl)

theorem exceeds_zero {low high : ℕ} (given : Number) :
    exceeds 0 (clampLimit low high given) = false := by
  unfold exceeds clampLimit
  cases given with
  | nan => rfl
  | infinity negative =>
    cases negative <;> simp
  | finite x =>
    simp only [Option.any_some, Int.cast_zero, decide_eq_false_iff_not, not_lt]
    exact le_trans (Nat.cast_nonneg low) (le_max_left _ _)

structure CacheLimits.Meets (limits : CacheLimits) : Prop where
  entries : exceeds 0 limits.maximumEntries = false
  bytes : exceeds 0 limits.maximumBytes = false

theorem cacheLimits_meets (maximumEntries maximumBytes : Number) :
    (cacheLimits maximumEntries maximumBytes).Meets :=
  ⟨exceeds_zero maximumEntries, exceeds_zero maximumBytes⟩

namespace MemoryCache

theorem isOver_mono {cache other : MemoryCache κ} (hsize : cache.entries.size ≤ other.entries.size)
    (hbytes : cache.totalBytes ≤ other.totalBytes) (h : other.isOver limits = false) :
    cache.isOver limits = false := by
  simp only [isOver, Bool.or_eq_false_iff] at h ⊢
  exact ⟨exceeds_mono (by exact_mod_cast hsize) h.1, exceeds_mono hbytes h.2⟩

theorem represents_evictOne {cache : MemoryCache κ} (h : Represents keyText cache) (key : κ) :
    Represents keyText (cache.evictOne key) := by
  obtain ⟨bytes, total, index, listed⟩ := represents_remove h key
  exact ⟨bytes, total, index, listed⟩

theorem evictFrom_ok (hlimits : limits.Meets) {cache : MemoryCache κ}
    (h : Represents keyText cache) {keys : List κ}
    (hkeys : cache.entries.entries.map Prod.fst = keys) :
    Represents keyText (evictFrom limits keys cache) ∧
      (evictFrom limits keys cache).isOver limits = false := by
  induction keys generalizing cache with
  | nil =>
    have hnil := List.map_eq_nil_iff.mp hkeys
    have htotal : cache.totalBytes = 0 := by simp [h.total, hnil]
    refine ⟨h, ?_⟩
    simp [evictFrom, isOver, OrderedMap.size, hnil, htotal, hlimits.entries, hlimits.bytes]
  | cons oldest rest ih =>
    rw [evictFrom]
    split
    · apply ih (represents_evictOne h oldest)
      change (cache.remove oldest).entries.entries.map Prod.fst = rest
      rw [remove_entries, OrderedMap.keys_delete_head hkeys]
    · next hover => exact ⟨h, by simpa using hover⟩

/-- The cache represents its entries and is not over its limits. -/
structure Sound (keyText : κ → Text) (limits : CacheLimits) (cache : MemoryCache κ) : Prop where
  represents : Represents keyText cache
  within : cache.isOver limits = false

theorem Sound.remove {cache : MemoryCache κ} (h : Sound keyText limits cache) (key : κ) :
    Sound keyText limits (cache.remove key) :=
  ⟨represents_remove h.represents key,
    isOver_mono (remove_le h.represents key).1 (remove_le h.represents key).2 h.within⟩

theorem Sound.foldl {α : Type} {f : MemoryCache κ → α → MemoryCache κ}
    (hf : ∀ cache a, Sound keyText limits cache → Sound keyText limits (f cache a)) (items : List α)
    {cache : MemoryCache κ} (h : Sound keyText limits cache) :
    Sound keyText limits (items.foldl f cache) := by
  induction items generalizing cache with
  | nil => exact h
  | cons a items ih => exact ih (hf cache a h)

theorem Sound.count {cache : MemoryCache κ} (h : Sound keyText limits cache)
    (statistics : CacheStatistics) : Sound keyText limits { cache with statistics } := by
  obtain ⟨⟨bytes, total, index, listed⟩, within⟩ := h
  exact ⟨⟨bytes, total, index, listed⟩, within⟩

theorem Sound.get {cache : MemoryCache κ} (h : Sound keyText limits cache) (key : κ) (now : Number)
    (allowStale : Bool) : Sound keyText limits (cache.get key now allowStale).1 := by
  unfold MemoryCache.get
  split
  · exact h
  · split
    · exact h.count _
    · next entry hkey =>
      split
      · exact (h.remove key).count _
      · apply Sound.count
        have hbytes : (cache.touch key entry).totalBytes ≤ cache.totalBytes := le_refl _
        exact ⟨represents_touch h.represents hkey, isOver_mono (size_touch hkey).le hbytes h.within⟩

theorem Sound.set (hlimits : limits.Meets) {cache : MemoryCache κ}
    (h : Sound keyText limits cache) (key : κ) (value : Text) (options : SetOptions) :
    Sound keyText limits (cache.set keyText limits key value options).1 := by
  unfold MemoryCache.set
  split
  · exact h
  · split
    · exact h
    · have hnew : (cache.remove key).entries.get? key = none := by rw [get?_remove, if_pos rfl]
      have hinsert : Represents keyText
          ((cache.remove key).insert key (newEntry keyText key value options)) :=
        represents_insert (represents_remove h.represents key) hnew rfl
      obtain ⟨hrepresents, hwithin⟩ := evictFrom_ok hlimits hinsert rfl
      exact ⟨hrepresents, hwithin⟩

theorem Sound.prune {cache : MemoryCache κ} (h : Sound keyText limits cache) (now : Number) :
    Sound keyText limits (cache.prune now) := by
  have hpruned : Sound keyText limits (cache.entries.entries.foldl
      (fun cache e => if laterThan e.2.staleUntil now then cache else cache.remove e.1) cache) := by
    apply Sound.foldl _ _ h
    intro cache e hcache
    split
    · exact hcache
    · exact hcache.remove e.1
  obtain ⟨⟨bytes, total, index, listed⟩, within⟩ := hpruned
  exact ⟨⟨bytes, total, index, listed⟩, within⟩

theorem Sound.close (hlimits : limits.Meets) (cache : MemoryCache κ) :
    Sound keyText limits cache.close := by
  have hnew : Represents keyText (newCache : MemoryCache κ) := Represents.new
  obtain ⟨bytes, total, index, listed⟩ := hnew
  refine ⟨⟨bytes, total, index, listed⟩, ?_⟩
  simp [isOver, MemoryCache.close, OrderedMap.size, OrderedMap.empty, hlimits.entries,
    hlimits.bytes]

theorem Sound.perform (hlimits : limits.Meets) {cache : MemoryCache κ}
    (h : Sound keyText limits cache) (operation : CacheOperation κ) :
    Sound keyText limits (cache.perform keyText limits operation) := by
  cases operation with
  | get key now allowStale => exact h.get key now allowStale
  | set key value options => exact h.set hlimits key value options
  | delete key => exact h.remove key
  | getMany keys now allowStale =>
    exact Sound.foldl (fun cache key hcache => hcache.get key now allowStale) _ h
  | setMany entries =>
    exact Sound.foldl (fun cache e hcache => hcache.set hlimits e.1 e.2.1 e.2.2) _ h
  | deleteMany keys => exact Sound.foldl (fun cache key hcache => hcache.remove key) _ h
  | increment key amount readAt options => exact (h.get key readAt false).set hlimits key _ options
  | prune now => exact h.prune now
  | invalidateTags tags => exact Sound.foldl (fun cache key hcache => hcache.remove key) _ h
  | close => exact Sound.close hlimits cache

end MemoryCache

open MemoryCache

theorem runCache_sound (hlimits : limits.Meets) (operations : List (CacheOperation κ)) :
    Sound keyText limits (runCache keyText limits operations) := by
  apply Sound.foldl (fun cache operation h => h.perform hlimits operation)
  refine ⟨Represents.new, ?_⟩
  simp [isOver, newCache, OrderedMap.size, OrderedMap.empty, hlimits.entries, hlimits.bytes]

def carriers (cache : MemoryCache κ) (tags : List Text) : List (κ × CacheEntry) :=
  cache.entries.entries.filter fun e => tags.any e.2.tags.contains

theorem mem_carriers {cache : MemoryCache κ} {tags : List Text} {e : κ × CacheEntry} :
    e ∈ carriers cache tags ↔ e ∈ cache.entries.entries ∧ ∃ tag ∈ tags, tag ∈ e.2.tags := by
  simp [carriers]

theorem get?_deleteMany (cache : MemoryCache κ) (keys : List κ) (key : κ) :
    (keys.foldl remove cache).entries.get? key =
      if key ∈ keys then none else cache.entries.get? key := by
  induction keys generalizing cache with
  | nil => simp
  | cons first keys ih =>
    rw [List.foldl_cons, ih, get?_remove]
    by_cases hmem : key ∈ keys
    · simp [hmem]
    · by_cases heq : key = first <;> simp [hmem, heq]

theorem mem_listedKeys {cache : MemoryCache κ} (h : Represents keyText cache) {tags : List Text}
    (htags : tags.length ≤ 32) {key : κ} :
    key ∈ cache.listedKeys tags ↔ key ∈ (carriers cache tags).map Prod.fst := by
  have hlists (tag : Text) : key ∈ (cache.tags.get? tag).getD [] ↔ Lists cache.tags tag key := by
    cases hget : cache.tags.get? tag <;> simp [Lists, hget]
  unfold listedKeys
  rw [mem_distinct, List.take_of_length_le htags, List.mem_flatMap]
  constructor
  · intro hlisted
    obtain ⟨tag, htag, hkey⟩ := hlisted
    obtain ⟨entry, hentry, hcarries⟩ := (h.listed tag key).mp ((hlists tag).mp hkey)
    apply List.mem_map.mpr
    exact ⟨(key, entry), mem_carriers.mpr ⟨OrderedMap.get?_eq_some.mp hentry, tag, htag, hcarries⟩,
      rfl⟩
  · intro hcarrier
    obtain ⟨e, he, rfl⟩ := List.mem_map.mp hcarrier
    obtain ⟨hmem, tag, htag, hcarries⟩ := mem_carriers.mp he
    refine ⟨tag, htag, (hlists tag).mpr ((h.listed tag e.1).mpr ?_)⟩
    exact ⟨e.2, OrderedMap.get?_eq_some.mpr hmem, hcarries⟩

theorem length_listedKeys {cache : MemoryCache κ} (h : Represents keyText cache) {tags : List Text}
    (htags : tags.length ≤ 32) :
    (cache.listedKeys tags).length = (carriers cache tags).length := by
  have hnodup : ((carriers cache tags).map Prod.fst).Nodup :=
    cache.entries.nodup_keys.sublist (List.Sublist.map Prod.fst List.filter_sublist)
  have hperm : (cache.listedKeys tags).Perm ((carriers cache tags).map Prod.fst) :=
    (List.perm_ext_iff_of_nodup (nodup_distinct _) hnodup).mpr fun key => mem_listedKeys h htags
  rw [hperm.length_eq, List.length_map]

def Cleared (cache : MemoryCache κ) (tags : List Text) : Prop :=
  ∀ key entry, cache.entries.get? key = some entry → ∀ tag ∈ tags, tag ∉ entry.tags

theorem cleared_iff {cache : MemoryCache κ} (h : Represents keyText cache) {tags : List Text}
    (htags : tags.length ≤ 32) :
    Cleared (cache.invalidateTags tags).1 tags ↔ (carriers cache tags).length ≤ batchLimit := by
  rw [← length_listedKeys h htags]
  have hget (key : κ) : (cache.invalidateTags tags).1.entries.get? key =
      if key ∈ (cache.listedKeys tags).take batchLimit then none else cache.entries.get? key :=
    get?_deleteMany cache _ key
  constructor
  · intro hcleared
    by_contra hlong
    have hlt : batchLimit < (cache.listedKeys tags).length := Nat.lt_of_not_le hlong
    -- the first key behind the batch keeps its entry
    have hkeep : (cache.listedKeys tags)[batchLimit] ∉ (cache.listedKeys tags).take batchLimit := by
      intro hmem
      obtain ⟨i, hi, heq⟩ := List.mem_take_iff_getElem.mp hmem
      have := (List.Nodup.getElem_inj_iff (nodup_distinct _)).mp heq
      omega
    obtain ⟨e, he, hkey⟩ := List.mem_map.mp ((mem_listedKeys h htags).mp (List.getElem_mem hlt))
    obtain ⟨hmem, tag, htag, hcarries⟩ := mem_carriers.mp he
    apply hcleared e.1 e.2 _ tag htag hcarries
    rw [hget, if_neg (hkey ▸ hkeep)]
    exact OrderedMap.get?_eq_some.mpr hmem
  · intro hshort key entry hentry tag htag hcarries
    rw [hget, List.take_of_length_le hshort] at hentry
    split at hentry
    · cases hentry
    · next hnot =>
      apply hnot
      apply (mem_listedKeys h htags).mpr
      have hcarrier : (key, entry) ∈ carriers cache tags :=
        mem_carriers.mpr ⟨OrderedMap.get?_eq_some.mp hentry, tag, htag, hcarries⟩
      exact List.mem_map_of_mem hcarrier

structure WithinLimits (limits : CacheLimits) (cache : MemoryCache κ) : Prop where
  entries : ∃ limit, limits.maximumEntries = some limit ∧ (cache.entries.size : ℚ) ≤ limit
  bytes : ∃ limit, limits.maximumBytes = some limit ∧ (cache.totalBytes : ℚ) ≤ limit

def CacheLimits.AreNumbers (limits : CacheLimits) : Prop :=
  limits.maximumEntries ≠ none ∧ limits.maximumBytes ≠ none

theorem not_exceeds_iff {count : ℤ} {limit : Option ℚ} (h : limit ≠ none) :
    exceeds count limit = false ↔ ∃ l, limit = some l ∧ (count : ℚ) ≤ l := by
  cases limit with
  | none => exact absurd rfl h
  | some l => simp [exceeds]

theorem MemoryCache.Sound.withinLimits_iff {cache : MemoryCache κ}
    (h : Sound keyText limits cache) : WithinLimits limits cache ↔ limits.AreNumbers := by
  constructor
  · intro hwithin
    obtain ⟨⟨l, hl, -⟩, m, hm, -⟩ := hwithin
    exact ⟨by simp [hl], by simp [hm]⟩
  · intro hnumbers
    have hover := h.within
    simp only [isOver, Bool.or_eq_false_iff] at hover
    refine ⟨?_, (not_exceeds_iff hnumbers.2).mp hover.2⟩
    have hentries := (not_exceeds_iff hnumbers.1).mp hover.1
    simpa using hentries

theorem set_fitting {cache : MemoryCache κ} {key : κ} {value : Text} {options : SetOptions}
    (hopen : cache.closed = false) (hnew : cache.entries.get? key = none)
    (hvalue : exceeds (entryBytes keyText key value) limits.maximumBytes = false)
    (hfits : (cache.insert key (newEntry keyText key value options)).isOver limits = false) :
    (cache.set keyText limits key value options).1 =
      cache.insert key (newEntry keyText key value options) := by
  have hremove : cache.remove key = cache := by simp [MemoryCache.remove, hnew]
  have hevict {later : MemoryCache κ} (h : later.isOver limits = false) (keys : List κ) :
      evictFrom limits keys later = later := by
    cases keys with
    | nil => rfl
    | cons oldest rest => simp [evictFrom, h]
  simp only [MemoryCache.set, hopen, hvalue, hremove, evict]
  exact hevict hfits _

private def unitText (u : UInt16) : Text := [u]

private def pageOptions : SetOptions where
  now := .nan
  tags := [ascii "report"]

private def wideLimits : CacheLimits := cacheLimits (.infinity false) (.infinity false)

private def storePages (n : ℕ) : List (CacheOperation UInt16) :=
  (List.range n).map fun page => .set (UInt16.ofNat page) [] pageOptions

private theorem bytes_unitText (u : UInt16) : entryBytes unitText u [] ≤ 4 := by
  change Utf8.byteLength [u] + 0 ≤ 4
  simp only [Utf8.byteLength, Utf8.encode, Utf8.scalars, List.flatMap_cons, List.flatMap_nil,
    List.append_nil, Utf8.encodeScalar]
  split_ifs <;> simp

private theorem ofNat_inj {m n : ℕ} (hm : m < 251) (hn : n < 251)
    (h : UInt16.ofNat m = UInt16.ofNat n) : m = n := by
  have hnat := congrArg UInt16.toNat h
  rw [UInt16.toNat_ofNat', UInt16.toNat_ofNat'] at hnat
  omega

private theorem storePages_kept {n : ℕ} (hn : n ≤ 251) :
    (runCache unitText wideLimits (storePages n)).closed = false ∧
      (runCache unitText wideLimits (storePages n)).totalBytes ≤ 4 * n ∧
      (runCache unitText wideLimits (storePages n)).entries.entries = (List.range n).map fun page =>
        (UInt16.ofNat page, newEntry unitText (UInt16.ofNat page) [] pageOptions) := by
  induction n with
  | zero => exact ⟨rfl, le_refl 0, rfl⟩
  | succ n ih =>
    obtain ⟨hopen, hbytes, hentries⟩ := ih (by omega)
    have hstep : runCache unitText wideLimits (storePages (n + 1)) =
        ((runCache unitText wideLimits (storePages n)).set unitText wideLimits
          (UInt16.ofNat n) [] pageOptions).1 := by
      simp [runCache, storePages, List.range_succ, MemoryCache.perform]
    have hpage := bytes_unitText (UInt16.ofNat n)
    have hnew : (runCache unitText wideLimits (storePages n)).entries.get? (UInt16.ofNat n) = none := by
      rw [Option.eq_none_iff_forall_ne_some]
      intro entry hentry
      have hmem := OrderedMap.get?_eq_some.mp hentry
      rw [hentries] at hmem
      obtain ⟨page, hpage, heq⟩ := List.mem_map.mp hmem
      rw [List.mem_range] at hpage
      have := ofNat_inj (by omega) (by omega) (congrArg Prod.fst heq)
      omega
    have hset := OrderedMap.set_of_get?_none hnew (newEntry unitText (UInt16.ofNat n) [] pageOptions)
    have hroom {count : ℤ} (h : count ≤ 2000) {limit : Option ℚ}
        (hlimit : limit = some 100000 ∨ limit = some 268435456) : exceeds count limit = false := by
      have hcount : (count : ℚ) ≤ 2000 := by exact_mod_cast h
      rcases hlimit with rfl | rfl
      all_goals
        simp only [exceeds, Option.any_some, decide_eq_false_iff_not, not_lt]
        linarith
    rw [hstep, set_fitting hopen hnew]
    · refine ⟨hopen, ?_, ?_⟩
      · change (runCache unitText wideLimits (storePages n)).totalBytes +
          (entryBytes unitText (UInt16.ofNat n) [] : ℤ) ≤ _
        push_cast
        omega
      · change ((runCache unitText wideLimits (storePages n)).entries.set _ _).entries = _
        rw [hset, hentries, List.range_succ, List.map_append]
        rfl
    · exact hroom (by omega) (.inr (by rfl))
    · rw [isOver, Bool.or_eq_false_iff]
      constructor
      · refine hroom ?_ (.inl rfl)
        change ((((runCache unitText wideLimits (storePages n)).entries.set _ _).entries.length : ℕ) : ℤ) ≤ _
        rw [hset, hentries, List.length_append, List.length_map, List.length_range]
        simp
        omega
      · refine hroom ?_ (.inr (by rfl))
        change (runCache unitText wideLimits (storePages n)).totalBytes +
          (entryBytes unitText (UInt16.ofNat n) [] : ℤ) ≤ _
        omega

end GhostBridge.DataAccess
