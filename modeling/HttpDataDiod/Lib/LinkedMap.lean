import Mathlib.Data.List.Basic
import Mathlib.Data.List.Nodup
import Mathlib.Data.List.Perm.Basic

/-!
# Maps whose entries point into a list

A cache that drops its oldest entries is often a hash map together with a linked list of
its keys: every entry holds an iterator, the node of its key in the list.  A node keeps its
identity while it is moved to the end of the list, and an iterator is valid as long as its
node has not been erased.

* `lookup`, `eraseKey`, `modify`, `upsert`: the map, as a list of its entries.
* `NodeList`: the list, as its nodes with their identities; `pushBack`, `erase`,
  `moveToBack` (a splice) and `popFront`.
* `Linked`: the entries of the map and the nodes of the list are in bijection through the
  iterators.
* `Linked.insert`, `Linked.erase`, `Linked.touch`, `Linked.popFront`, `Linked.modify`: the
  operations that keep it.
* `Linked.values_erase`, `Linked.values_moveToBack`: what they do to the list of keys.
-/

namespace LinkedMap

variable {κ β γ : Type*}

/-! ## The map -/

variable {entries : List (κ × β)} {key k : κ} {value : β}

/-- A key that is not there can be added. -/
theorem nodup_keys_append (hnodup : (entries.map Prod.fst).Nodup)
    (h : key ∉ entries.map Prod.fst) (value : β) :
    ((entries ++ [(key, value)]).map Prod.fst).Nodup := by
  rw [List.map_append]
  refine List.nodup_append.mpr ⟨hnodup, List.nodup_singleton key, ?_⟩
  rintro a ha b hb rfl
  obtain rfl : a = key := List.mem_singleton.mp hb
  exact h ha

/-- Two entries of one key are one. -/
theorem eq_of_mem {value' : β} (hnodup : (entries.map Prod.fst).Nodup)
    (h : (key, value) ∈ entries) (h' : (key, value') ∈ entries) : value = value' :=
  congrArg Prod.snd (List.inj_on_of_nodup_map hnodup h h' rfl)

section Map

variable [DecidableEq κ]

/-- The value of a key. -/
def lookup (entries : List (κ × β)) (key : κ) : Option β :=
  (entries.find? fun e => e.1 = key).map Prod.snd

/-- The map without a key. -/
def eraseKey (entries : List (κ × β)) (key : κ) : List (κ × β) :=
  entries.filter fun e => e.1 ≠ key

/-- The map with the value of one key changed. -/
def modify (entries : List (κ × β)) (key : κ) (f : β → β) : List (κ × β) :=
  entries.map fun e => if e.1 = key then (e.1, f e.2) else e

theorem lookup_cons (entry : κ × β) (entries : List (κ × β)) (key : κ) :
    lookup (entry :: entries) key = if entry.1 = key then some entry.2 else lookup entries key := by
  unfold lookup
  rw [List.find?_cons]
  by_cases h : entry.1 = key
  · simp [h]
  · simp [h]

theorem mem_of_lookup (h : lookup entries key = some value) : (key, value) ∈ entries := by
  obtain ⟨e, he, rfl⟩ := Option.map_eq_some_iff.mp h
  have hkey : e.1 = key := by simpa using List.find?_some he
  subst hkey
  exact List.mem_of_find?_eq_some he

theorem lookup_eq_none_iff : lookup entries key = none ↔ key ∉ entries.map Prod.fst := by
  rw [lookup, Option.map_eq_none_iff, List.find?_eq_none, List.mem_map]
  constructor
  · rintro h ⟨e, he, rfl⟩
    exact h e he (decide_eq_true rfl)
  · intro h e he hkey
    exact h ⟨e, he, of_decide_eq_true hkey⟩

/-- The key is there. -/
theorem isSome_lookup_iff : (lookup entries key).isSome = true ↔ key ∈ entries.map Prod.fst := by
  rw [← not_iff_not, Bool.not_eq_true, Option.isSome_eq_false_iff, Option.isNone_iff_eq_none]
  exact lookup_eq_none_iff

theorem lookup_of_mem (hnodup : (entries.map Prod.fst).Nodup) (h : (key, value) ∈ entries) :
    lookup entries key = some value := by
  cases hlookup : lookup entries key with
  | none => exact absurd (List.mem_map_of_mem h) (lookup_eq_none_iff.mp hlookup)
  | some value' => rw [eq_of_mem hnodup h (mem_of_lookup hlookup)]

theorem mem_eraseKey {e : κ × β} : e ∈ eraseKey entries key ↔ e ∈ entries ∧ e.1 ≠ key := by
  rw [eraseKey, List.mem_filter, decide_eq_true_iff]

theorem mem_keys_eraseKey :
    k ∈ (eraseKey entries key).map Prod.fst ↔ k ∈ entries.map Prod.fst ∧ k ≠ key := by
  constructor
  · intro hk
    obtain ⟨e, he, rfl⟩ := List.mem_map.mp hk
    exact ⟨List.mem_map_of_mem (mem_eraseKey.mp he).1, (mem_eraseKey.mp he).2⟩
  · rintro ⟨hk, hne⟩
    obtain ⟨e, he, rfl⟩ := List.mem_map.mp hk
    exact List.mem_map_of_mem (mem_eraseKey.mpr ⟨he, hne⟩)

theorem nodup_eraseKey (hnodup : (entries.map Prod.fst).Nodup) (key : κ) :
    ((eraseKey entries key).map Prod.fst).Nodup :=
  hnodup.sublist (List.filter_sublist.map _)

/-- One entry less. -/
theorem length_eraseKey (hnodup : (entries.map Prod.fst).Nodup) (h : key ∈ entries.map Prod.fst) :
    (eraseKey entries key).length + 1 = entries.length := by
  have hkeys : (eraseKey entries key).map Prod.fst = (entries.map Prod.fst).erase key := by
    rw [hnodup.erase_eq_filter, eraseKey, List.filter_map]
    congr 2
    funext e
    by_cases he : e.1 = key
    · simp [he]
    · simp [he]
  have hlength := List.length_erase_of_mem h
  rw [← hkeys, List.length_map, List.length_map] at hlength
  have hpos : 0 < entries.length := by
    rw [← List.length_map (f := Prod.fst)]
    exact List.length_pos_of_mem h
  omega

theorem eraseKey_eq_self (h : key ∉ entries.map Prod.fst) : eraseKey entries key = entries := by
  refine List.filter_eq_self.mpr fun e he => decide_eq_true ?_
  rintro rfl
  exact h (List.mem_map_of_mem he)

theorem keys_modify (entries : List (κ × β)) (key : κ) (f : β → β) :
    (modify entries key f).map Prod.fst = entries.map Prod.fst := by
  rw [modify, List.map_map]
  refine List.map_congr_left fun e _ => ?_
  show (if e.1 = key then (e.1, f e.2) else e).1 = e.1
  split <;> rfl

theorem length_modify (entries : List (κ × β)) (key : κ) (f : β → β) :
    (modify entries key f).length = entries.length :=
  List.length_map _

theorem mem_modify {f : β → β} {e : κ × β} :
    e ∈ modify entries key f ↔
      (e ∈ entries ∧ e.1 ≠ key) ∨ ∃ value, (key, value) ∈ entries ∧ e = (key, f value) := by
  rw [modify, List.mem_map]
  constructor
  · rintro ⟨⟨k, value⟩, hmem, rfl⟩
    by_cases hk : k = key
    · subst hk
      rw [if_pos rfl]
      exact .inr ⟨value, hmem, rfl⟩
    · rw [if_neg hk]
      exact .inl ⟨hmem, hk⟩
  · rintro (⟨hmem, hne⟩ | ⟨value, hmem, rfl⟩)
    · exact ⟨e, hmem, if_neg hne⟩
    · exact ⟨(key, value), hmem, if_pos rfl⟩

theorem lookup_eraseKey (entries : List (κ × β)) (key k : κ) :
    lookup (eraseKey entries key) k = if k = key then none else lookup entries k := by
  unfold lookup eraseKey
  rw [List.find?_filter]
  split
  · rename_i hk
    subst hk
    rw [List.find?_eq_none.mpr]
    · rfl
    · intro e _
      simp
  · rename_i hk
    congr 2
    funext e
    by_cases he : e.1 = k
    · simp [he, hk]
    · simp [he]

theorem lookup_modify (entries : List (κ × β)) (key k : κ) (f : β → β) :
    lookup (modify entries key f) k =
      if k = key then (lookup entries k).map f else lookup entries k := by
  unfold lookup modify
  have hsame : ((fun e : κ × β => decide (e.1 = k)) ∘
      fun e => if e.1 = key then (e.1, f e.2) else e) = fun e => decide (e.1 = k) := by
    funext e
    show decide ((if e.1 = key then (e.1, f e.2) else e).1 = k) = _
    split <;> rfl
  rw [List.find?_map, hsame, Option.map_map]
  cases hfind : entries.find? fun e => decide (e.1 = k) with
  | none => simp
  | some e =>
    have hkey : e.1 = k := by simpa using List.find?_some hfind
    simp only [Option.map_some, Function.comp, hkey]
    split <;> rfl

theorem eraseKey_cons (entry : κ × β) (entries : List (κ × β)) (key : κ) :
    eraseKey (entry :: entries) key =
      if entry.1 = key then eraseKey entries key else entry :: eraseKey entries key := by
  unfold eraseKey
  rw [List.filter_cons]
  by_cases h : entry.1 = key
  · simp [h]
  · simp [h]

/-- The entry of a key, and the others. -/
theorem perm_cons_eraseKey (hnodup : (entries.map Prod.fst).Nodup)
    (h : lookup entries key = some value) :
    entries.Perm ((key, value) :: eraseKey entries key) := by
  induction entries with
  | nil => cases h
  | cons e entries ih =>
    rw [List.map_cons, List.nodup_cons] at hnodup
    rw [lookup_cons] at h
    rw [eraseKey_cons]
    by_cases hkey : e.1 = key
    · rw [if_pos hkey] at h ⊢
      subst hkey
      rw [eraseKey_eq_self hnodup.1, ← Option.some.inj h]
    · rw [if_neg hkey] at h ⊢
      exact ((ih hnodup.2 h).cons e).trans (List.Perm.swap _ _ _)

/-- A change is one of the entry. -/
theorem modify_perm (hnodup : (entries.map Prod.fst).Nodup)
    (h : lookup entries key = some value) (f : β → β) :
    (modify entries key f).Perm ((key, f value) :: eraseKey entries key) := by
  refine ((perm_cons_eraseKey hnodup h).map _).trans (List.Perm.of_eq ?_)
  rw [List.map_cons, if_pos rfl]
  congr 1
  refine (List.map_congr_left fun e he => ?_).trans (List.map_id _)
  exact if_neg (mem_eraseKey.mp he).2

/-- `operator[]` with an assignment: the value of the key is changed, and a key that is not there
is put in with a value of its own first. -/
def upsert (entries : List (κ × β)) (key : κ) (init : β) (f : β → β) : List (κ × β) :=
  if (lookup entries key).isSome then modify entries key f else entries ++ [(key, f init)]

theorem keys_upsert (entries : List (κ × β)) (key : κ) (init : β) (f : β → β) :
    (upsert entries key init f).map Prod.fst =
      if key ∈ entries.map Prod.fst then entries.map Prod.fst
      else entries.map Prod.fst ++ [key] := by
  unfold upsert
  by_cases h : key ∈ entries.map Prod.fst
  · rw [if_pos (isSome_lookup_iff.mpr h), if_pos h, keys_modify]
  · rw [if_neg (mt isSome_lookup_iff.mp h), if_neg h, List.map_append]
    rfl

theorem mem_keys_upsert {init : β} {f : β → β} :
    k ∈ (upsert entries key init f).map Prod.fst ↔ k = key ∨ k ∈ entries.map Prod.fst := by
  rw [keys_upsert]
  split
  · next h =>
    constructor
    · exact .inr
    · rintro (rfl | hk)
      · exact h
      · exact hk
  · rw [List.mem_append, List.mem_singleton, or_comm]

theorem nodup_upsert (hnodup : (entries.map Prod.fst).Nodup) (key : κ) (init : β) (f : β → β) :
    ((upsert entries key init f).map Prod.fst).Nodup := by
  rw [keys_upsert]
  split
  · exact hnodup
  · next h => simpa using nodup_keys_append hnodup h init

theorem lookup_upsert (entries : List (κ × β)) (key k : κ) (init : β) (f : β → β) :
    lookup (upsert entries key init f) k =
      if k = key then some (f ((lookup entries key).getD init)) else lookup entries k := by
  unfold upsert
  split
  · next h =>
    obtain ⟨value, hvalue⟩ := Option.isSome_iff_exists.mp h
    rw [lookup_modify]
    split
    · next hk =>
      subst hk
      rw [hvalue]
      rfl
    · rfl
  · next h =>
    have hnone : lookup entries key = none := by
      simpa using h
    rw [hnone]
    unfold lookup at hnone ⊢
    rw [List.find?_append]
    split
    · next hk =>
      subst hk
      rw [Option.map_eq_none_iff.mp hnone]
      simp
    · next hk =>
      rw [List.find?_cons_of_neg (by simpa using fun h => hk h.symm), List.find?_nil,
        Option.or_none]

/-- What holds of all entries, and of the changed one. -/
theorem forall_mem_upsert {P : κ × β → Prop} {init : β} {f : β → β} (h : ∀ e ∈ entries, P e)
    (hinit : P (key, f init)) (hf : ∀ value, P (key, value) → P (key, f value)) :
    ∀ e ∈ upsert entries key init f, P e := by
  intro e he
  unfold upsert at he
  split at he
  · rcases mem_modify.mp he with ⟨hmem, -⟩ | ⟨value, hmem, rfl⟩
    · exact h e hmem
    · exact hf value (h _ hmem)
  · rcases List.mem_append.mp he with hmem | hmem
    · exact h e hmem
    · rw [List.mem_singleton.mp hmem]
      exact hinit

/-- Reading through a change of all values. -/
theorem lookup_map (entries : List (κ × β)) (key : κ) (f : β → γ) :
    lookup (entries.map fun e => (e.1, f e.2)) key = (lookup entries key).map f := by
  unfold lookup
  rw [List.find?_map, Option.map_map, Option.map_map]
  rfl

theorem eraseKey_map (entries : List (κ × β)) (key : κ) (f : β → γ) :
    eraseKey (entries.map fun e => (e.1, f e.2)) key =
      (eraseKey entries key).map fun e => (e.1, f e.2) := by
  unfold eraseKey
  rw [List.filter_map]
  rfl

end Map

/-! ## The list -/

/-- A linked list: its nodes in order, each with its identity, and the identity of the next
node that is made. -/
@[ext] structure NodeList (κ : Type*) where
  nodes : List (ℕ × κ)
  next : ℕ
  lt_next : ∀ n ∈ nodes, n.1 < next
  ids_nodup : (nodes.map Prod.fst).Nodup

namespace NodeList

/-- The empty list. -/
def empty : NodeList κ where
  nodes := []
  next := 0
  lt_next := fun _ h => nomatch h
  ids_nodup := List.nodup_nil

/-- The elements. -/
def values (l : NodeList κ) : List κ := l.nodes.map Prod.snd

variable (l : NodeList κ) (i : ℕ)

theorem lt_next_pushBack (k : κ) : ∀ n ∈ l.nodes ++ [(l.next, k)], n.1 < l.next + 1 := by
  intro n hn
  rcases List.mem_append.mp hn with h | h
  · exact Nat.lt_succ_of_lt (l.lt_next n h)
  · rw [List.mem_singleton.mp h]
    exact Nat.lt_succ_self _

theorem ids_nodup_pushBack (k : κ) : ((l.nodes ++ [(l.next, k)]).map Prod.fst).Nodup := by
  rw [List.map_append, List.nodup_append]
  refine ⟨l.ids_nodup, List.nodup_singleton _, ?_⟩
  intro i hi j hj hij
  obtain ⟨n, hn, rfl⟩ := List.mem_map.mp hi
  have hlt := l.lt_next n hn
  rw [List.map_singleton, List.mem_singleton] at hj
  omega

/-- `push_back`.  The iterator to the new node is `l.next`. -/
def pushBack (k : κ) : NodeList κ where
  nodes := l.nodes ++ [(l.next, k)]
  next := l.next + 1
  lt_next := l.lt_next_pushBack k
  ids_nodup := l.ids_nodup_pushBack k

/-- `erase` of a node. -/
def erase : NodeList κ where
  nodes := l.nodes.filter fun n => !decide (n.1 = i)
  next := l.next
  lt_next := fun n hn => l.lt_next n (List.mem_filter.mp hn).1
  ids_nodup := l.ids_nodup.sublist (List.filter_sublist.map _)

theorem perm_moveToBack :
    ((l.nodes.filter fun n => !decide (n.1 = i)) ++ l.nodes.filter fun n => decide (n.1 = i)).Perm
      l.nodes :=
  List.perm_append_comm.trans (List.filter_append_perm _ _)

/-- `splice` of a node of the list to its end. -/
def moveToBack : NodeList κ where
  nodes := (l.nodes.filter fun n => !decide (n.1 = i)) ++ l.nodes.filter fun n => decide (n.1 = i)
  next := l.next
  lt_next := fun n hn => l.lt_next n ((l.perm_moveToBack i).mem_iff.mp hn)
  ids_nodup := ((l.perm_moveToBack i).map Prod.fst).nodup_iff.mpr l.ids_nodup

/-- `front`. -/
def front? : Option κ := l.values.head?

/-- `pop_front`. -/
def popFront : NodeList κ where
  nodes := l.nodes.tail
  next := l.next
  lt_next := fun n hn => l.lt_next n (List.mem_of_mem_tail hn)
  ids_nodup := l.ids_nodup.sublist ((List.tail_sublist _).map _)

theorem values_pushBack (k : κ) : (l.pushBack k).values = l.values ++ [k] := by
  show (l.nodes ++ [(l.next, k)]).map Prod.snd = _
  rw [List.map_append]
  rfl

theorem values_popFront : l.popFront.values = l.values.tail := List.map_tail

/-- Popping the first node is erasing it. -/
theorem popFront_eq_erase {l : NodeList κ} {n : ℕ × κ} (h : l.nodes.head? = some n) :
    l.popFront = l.erase n.1 := by
  obtain ⟨rest, hrest⟩ := List.head?_eq_some_iff.mp h
  have hnodup := l.ids_nodup
  rw [hrest, List.map_cons, List.nodup_cons] at hnodup
  ext1
  · show l.nodes.tail = l.nodes.filter _
    rw [hrest, List.tail_cons, List.filter_cons_of_neg (by simp)]
    refine (List.filter_eq_self.mpr fun m hm => ?_).symm
    have hne : m.1 ≠ n.1 := fun heq => hnodup.1 (heq ▸ List.mem_map_of_mem hm)
    simp [hne]
  · rfl

end NodeList

/-! ## The map and the list -/

/-- The entries of the map and the nodes of the list are in bijection: the iterator of every
entry is a node with its key, and every node is the iterator of an entry. -/
structure Linked (iter : β → ℕ) (entries : List (κ × β)) (order : NodeList κ) : Prop where
  keys_nodup : (entries.map Prod.fst).Nodup
  points : ∀ key value, (key, value) ∈ entries → (iter value, key) ∈ order.nodes
  pointed : ∀ i key, (i, key) ∈ order.nodes → ∃ value, (key, value) ∈ entries ∧ iter value = i

variable {iter : β → ℕ} {order : NodeList κ} {i : ℕ}

theorem linked_empty (iter : β → ℕ) : Linked iter ([] : List (κ × β)) .empty where
  keys_nodup := List.nodup_nil
  points := nofun
  pointed := nofun

namespace Linked

theorem mem_values_iff (h : Linked iter entries order) :
    key ∈ order.values ↔ key ∈ entries.map Prod.fst := by
  constructor
  · intro hkey
    obtain ⟨⟨i, k⟩, hn, rfl⟩ := List.mem_map.mp hkey
    obtain ⟨value, hvalue, -⟩ := h.pointed i k hn
    exact List.mem_map_of_mem hvalue
  · intro hkey
    obtain ⟨⟨k, value⟩, hn, rfl⟩ := List.mem_map.mp hkey
    exact List.mem_map_of_mem (h.points k value hn)

/-- Two nodes with one key are one. -/
theorem eq_of_mem_nodes {j : ℕ} (h : Linked iter entries order) (hi : (i, key) ∈ order.nodes)
    (hj : (j, key) ∈ order.nodes) : i = j := by
  obtain ⟨value, hvalue, rfl⟩ := h.pointed i key hi
  obtain ⟨value', hvalue', rfl⟩ := h.pointed j key hj
  rw [eq_of_mem h.keys_nodup hvalue hvalue']

/-- The list has no key twice. -/
theorem values_nodup (h : Linked iter entries order) : order.values.Nodup := by
  refine List.Nodup.map_on ?_ (List.Nodup.of_map _ order.ids_nodup)
  rintro ⟨i, k⟩ hn ⟨j, k'⟩ hn' hk
  obtain rfl : k = k' := hk
  rw [h.eq_of_mem_nodes hn hn']

theorem length_values (h : Linked iter entries order) : order.values.length = entries.length := by
  have hperm : order.values.Perm (entries.map Prod.fst) :=
    (List.perm_ext_iff_of_nodup h.values_nodup h.keys_nodup).mpr fun _ => h.mem_values_iff
  rw [hperm.length_eq, List.length_map]

/-- Among the nodes, the iterator of an entry and its key say the same. -/
theorem id_eq_iff (h : Linked iter entries order) (hvalue : (key, value) ∈ entries)
    {n : ℕ × κ} (hn : n ∈ order.nodes) : n.1 = iter value ↔ n.2 = key := by
  have hpoints := h.points key value hvalue
  constructor
  · intro hid
    exact congrArg Prod.snd (List.inj_on_of_nodup_map order.ids_nodup hn hpoints hid)
  · intro hkey
    subst hkey
    exact h.eq_of_mem_nodes hn hpoints

/-- **Inserting a new key** at the end of the list. -/
theorem insert (h : Linked iter entries order) (hkey : key ∉ entries.map Prod.fst)
    (hiter : iter value = order.next) :
    Linked iter ((key, value) :: entries) (order.pushBack key) where
  keys_nodup := List.nodup_cons.mpr ⟨hkey, h.keys_nodup⟩
  points := by
    intro k v hmem
    rcases List.mem_cons.mp hmem with heq | hmem
    · obtain ⟨rfl, rfl⟩ := Prod.mk.inj heq
      rw [hiter]
      exact List.mem_append_right _ List.mem_cons_self
    · exact List.mem_append_left _ (h.points k v hmem)
  pointed := by
    intro i k hn
    rcases List.mem_append.mp hn with hn | hn
    · obtain ⟨v, hv, hi⟩ := h.pointed i k hn
      exact ⟨v, List.mem_cons_of_mem _ hv, hi⟩
    · obtain ⟨rfl, rfl⟩ := Prod.mk.inj (List.mem_singleton.mp hn)
      exact ⟨value, List.mem_cons_self, hiter⟩

/-- **Moving the node of an entry** to the end of the list. -/
theorem touch (h : Linked iter entries order) (i : ℕ) :
    Linked iter entries (order.moveToBack i) where
  keys_nodup := h.keys_nodup
  points := fun k v hmem => (order.perm_moveToBack i).mem_iff.mpr (h.points k v hmem)
  pointed := fun j k hn => h.pointed j k ((order.perm_moveToBack i).mem_iff.mp hn)

variable [DecidableEq κ]

/-- **Erasing an entry** from the map and, through its iterator, from the list. -/
theorem erase (h : Linked iter entries order) (hvalue : (key, value) ∈ entries) :
    Linked iter (eraseKey entries key) (order.erase (iter value)) where
  keys_nodup := nodup_eraseKey h.keys_nodup key
  points := by
    intro k v hmem
    obtain ⟨hmem, hne⟩ := mem_eraseKey.mp hmem
    have hpoints := h.points k v hmem
    refine List.mem_filter.mpr ⟨hpoints, ?_⟩
    have hid := h.id_eq_iff hvalue hpoints
    simp [hid, hne]
  pointed := by
    intro i k hn
    obtain ⟨hn, hne⟩ := List.mem_filter.mp hn
    obtain ⟨v, hv, hiter⟩ := h.pointed i k hn
    refine ⟨v, mem_eraseKey.mpr ⟨hv, ?_⟩, hiter⟩
    have hid := h.id_eq_iff hvalue hn
    simpa [hid] using hne

/-- **Dropping the first key** of the list and its entry. -/
theorem popFront (h : Linked iter entries order) (hfront : order.front? = some key) :
    Linked iter (eraseKey entries key) order.popFront := by
  obtain ⟨i, hnodes⟩ : ∃ i, order.nodes.head? = some (i, key) := by
    obtain ⟨⟨i, k⟩, hhead, rfl⟩ := Option.map_eq_some_iff.mp (List.head?_map.symm.trans hfront)
    exact ⟨i, hhead⟩
  obtain ⟨value, hvalue, rfl⟩ := h.pointed i key (List.mem_of_mem_head? hnodes)
  rw [order.popFront_eq_erase hnodes]
  exact h.erase hvalue

/-- **Changing an entry** without its iterator. -/
theorem modify {f : β → β} (h : Linked iter entries order) (key : κ)
    (hf : ∀ value, iter (f value) = iter value) :
    Linked iter (LinkedMap.modify entries key f) order where
  keys_nodup := by
    rw [keys_modify]
    exact h.keys_nodup
  points := by
    intro k v hmem
    rcases mem_modify.mp hmem with ⟨hsame, -⟩ | ⟨value, hvalue, heq⟩
    · exact h.points k v hsame
    · obtain ⟨rfl, rfl⟩ := Prod.mk.inj heq
      rw [hf]
      exact h.points k value hvalue
  pointed := by
    intro i k hn
    obtain ⟨v, hv, hiter⟩ := h.pointed i k hn
    by_cases hk : k = key
    · subst hk
      exact ⟨f v, mem_modify.mpr (.inr ⟨v, hv, rfl⟩), (hf v).trans hiter⟩
    · exact ⟨v, mem_modify.mpr (.inl ⟨hv, hk⟩), hiter⟩

/-- The keys after an erasure. -/
theorem values_erase (h : Linked iter entries order) (hvalue : (key, value) ∈ entries) :
    (order.erase (iter value)).values = order.values.filter fun k => k ≠ key := by
  show (order.nodes.filter _).map Prod.snd = (order.nodes.map Prod.snd).filter _
  rw [List.filter_map]
  congr 1
  refine List.filter_congr fun n hn => ?_
  have hid := h.id_eq_iff hvalue hn
  by_cases hkey : n.2 = key
  · simp [hid, hkey]
  · simp [hid, hkey]

/-- The keys after a move. -/
theorem values_moveToBack (h : Linked iter entries order) (hvalue : (key, value) ∈ entries) :
    (order.moveToBack (iter value)).values = (order.values.filter fun k => k ≠ key) ++ [key] := by
  have hnodup : order.nodes.Nodup := List.Nodup.of_map _ order.ids_nodup
  have hlast : order.nodes.filter (fun n => decide (n.1 = iter value)) = [(iter value, key)] := by
    rw [List.filter_congr (q := fun n => decide (n = (iter value, key))), List.filter_eq,
      List.count_eq_one_of_mem hnodup (h.points key value hvalue), List.replicate_one]
    intro n hn
    have hid := h.id_eq_iff hvalue hn
    by_cases hkey : n.2 = key
    · simp [Prod.ext_iff, hid, hkey]
    · simp [Prod.ext_iff, hid, hkey]
  rw [NodeList.values, NodeList.moveToBack, List.map_append, hlast, ← h.values_erase hvalue]
  rfl

end Linked

end LinkedMap
