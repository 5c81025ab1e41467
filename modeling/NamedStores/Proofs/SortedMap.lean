/-
Maps in ascending order of their keys. Inserting keeps the order, so a key stands at most once
and looking it up finds what stands under it.
-/
import NamedStores.SortedMap

namespace NamedStores.SortedMap

variable {κ α : Type} [LT κ]

/-- The keys ascend strictly. -/
def Ordered (m : SortedMap κ α) : Prop := m.Pairwise (·.1 < ·.1)

theorem ordered_iff {m : SortedMap κ α} : Ordered m ↔ (m.map (·.1)).Pairwise (· < ·) :=
  List.pairwise_map.symm

variable [Std.Irrefl (α := κ) (· < ·)]

theorem ne_of_lt {k k' : κ} (h : k < k') : k ≠ k' := fun he => Std.lt_irrefl (he ▸ h)

theorem Ordered.nodup_keys {m : SortedMap κ α} (ho : Ordered m) : (keys m).Nodup :=
  (ordered_iff.1 ho).imp ne_of_lt

/-- A key stands at most once. -/
theorem Ordered.eq_of_mem {m : SortedMap κ α} (ho : Ordered m) {k : κ} {a a' : α}
    (h : (k, a) ∈ m) (h' : (k, a') ∈ m) : a = a' := by
  induction m with
  | nil => cases h
  | cons p m ih =>
    simp only [Ordered, List.pairwise_cons] at ho
    rcases List.mem_cons.1 h with rfl | hm <;> rcases List.mem_cons.1 h' with he | hm'
    · exact (congrArg Prod.snd he).symm
    · exact absurd (ho.1 _ hm') Std.lt_irrefl
    · subst he
      exact absurd (ho.1 _ hm) Std.lt_irrefl
    · exact ih ho.2 hm hm'

variable [DecidableEq κ]

omit [LT κ] [Std.Irrefl (α := κ) (· < ·)] in
theorem mem_of_get? {m : SortedMap κ α} {k : κ} {a : α} (h : get? m k = some a) : (k, a) ∈ m := by
  simp only [get?, Option.map_eq_some_iff] at h
  obtain ⟨⟨k', a'⟩, hf, rfl⟩ := h
  have hk : k' = k := by simpa using List.find?_some hf
  exact hk ▸ List.mem_of_find?_eq_some hf

omit [LT κ] [Std.Irrefl (α := κ) (· < ·)] in
theorem get?_erase_self (m : SortedMap κ α) (k : κ) : get? (erase m k) k = none := by
  have nothing : (m.filter (·.1 ≠ k)).find? (·.1 = k) = none := by
    rw [List.find?_eq_none]
    intro p hp
    simpa using (List.mem_filter.1 hp).2
  rw [get?, erase, nothing]
  rfl

omit [LT κ] [Std.Irrefl (α := κ) (· < ·)] in
theorem get?_erase_other (m : SortedMap κ α) {k k' : κ} (hne : k' ≠ k) :
    get? (erase m k) k' = get? m k' := by
  have same : (m.filter (·.1 ≠ k)).find? (·.1 = k') = m.find? (·.1 = k') := by
    rw [List.find?_filter]
    congr 1
    funext p
    by_cases hp : p.1 = k'
    · simp [hp, hne]
    · simp [hp]
  rw [get?, erase, same, get?]

theorem Ordered.get?_eq_some_iff {m : SortedMap κ α} (ho : Ordered m) {k : κ} {a : α} :
    get? m k = some a ↔ (k, a) ∈ m := by
  refine ⟨mem_of_get?, fun h => ?_⟩
  cases hf : m.find? (·.1 = k) with
  | none =>
    rw [List.find?_eq_none] at hf
    simpa using hf _ h
  | some p =>
    obtain ⟨k', a'⟩ := p
    have hk : k' = k := by simpa using List.find?_some hf
    subst hk
    simp [get?, hf, ho.eq_of_mem (List.mem_of_find?_eq_some hf) h]

variable [DecidableLT κ]

theorem insert_insert (m : SortedMap κ α) (k : κ) (a a' : α) :
    (m.insert k a).insert k a' = m.insert k a' := by
  induction m with
  | nil => simp [insert, Std.lt_irrefl]
  | cons q m ih =>
    obtain ⟨k', b⟩ := q
    by_cases hlt : k < k'
    · simp [insert, hlt, Std.lt_irrefl]
    · by_cases he : k = k'
      · subst he
        simp [insert, Std.lt_irrefl]
      · simp [insert, hlt, he, ih]

omit [Std.Irrefl (α := κ) (· < ·)] in
theorem mem_keys_insert {m : SortedMap κ α} {k k' : κ} {a : α} :
    k' ∈ keys (m.insert k a) ↔ k' = k ∨ k' ∈ keys m := by
  induction m with
  | nil => simp [keys, insert]
  | cons q m ih =>
    unfold insert
    split
    · simp [keys]
    · split
      · next he => simp [keys, he]
      · simp only [keys, List.map_cons, List.mem_cons] at ih ⊢
        rw [ih]
        exact or_left_comm

omit [Std.Irrefl (α := κ) (· < ·)] in
theorem mem_keys_ofList {pairs : List (κ × α)} {k : κ} :
    k ∈ keys (ofList pairs) ↔ k ∈ pairs.map (·.1) := by
  suffices h : ∀ m : SortedMap κ α, k ∈ keys (pairs.foldl (fun m p => m.insert p.1 p.2) m) ↔
      k ∈ keys m ∨ k ∈ pairs.map (·.1) by
    exact (h []).trans (or_iff_right List.not_mem_nil)
  induction pairs with
  | nil => simp
  | cons p pairs ih =>
    intro m
    rw [List.foldl_cons, ih, mem_keys_insert, List.map_cons, List.mem_cons, or_assoc, or_left_comm]

omit [Std.Irrefl (α := κ) (· < ·)] in
theorem get?_insertAll_other (m : SortedMap κ α) {pairs : List (κ × α)} {k : κ}
    (apart : ∀ p ∈ pairs, p.1 ≠ k) :
    get? (pairs.foldl (fun m p => m.insert p.1 p.2) m) k = get? m k := by
  induction pairs generalizing m with
  | nil => rfl
  | cons p pairs ih =>
    have other : k ≠ p.1 := (apart p List.mem_cons_self).symm
    rw [List.foldl_cons, ih _ fun q hq => apart q (List.mem_cons_of_mem _ hq),
      get?_insert_other m p.2 other]

omit [Std.Irrefl (α := κ) (· < ·)] in
/-- Of the pairs with one key the last counts. -/
theorem get?_ofList_last (front : List (κ × α)) {back : List (κ × α)} {k : κ} (a : α)
    (last : ∀ p ∈ back, p.1 ≠ k) : get? (ofList (front ++ (k, a) :: back)) k = some a := by
  rw [ofList, List.foldl_append, List.foldl_cons, get?_insertAll_other _ last, get?_insert_self]

omit [Std.Irrefl (α := κ) (· < ·)] in
/-- The map of pairs is looked up from their end. -/
theorem get?_ofList (pairs : List (κ × α)) (k : κ) :
    get? (ofList pairs) k = (pairs.reverse.find? (·.1 = k)).map (·.2) := by
  suffices h : ∀ m : SortedMap κ α, get? (pairs.foldl (fun m p => m.insert p.1 p.2) m) k =
      ((pairs.reverse.find? (·.1 = k)).map (·.2)).or (get? m k) by
    rw [ofList, h, get?, List.find?_nil, Option.map_none, Option.or_none]
  induction pairs with
  | nil => exact fun m => rfl
  | cons p pairs ih =>
    intro m
    rw [List.foldl_cons, ih, List.reverse_cons, List.find?_append]
    cases pairs.reverse.find? (·.1 = k) with
    | some q => rfl
    | none =>
      by_cases same : p.1 = k
      · subst same
        simp [get?_insert_self]
      · simp [same, get?_insert_other m p.2 (Ne.symm same)]

omit [Std.Irrefl (α := κ) (· < ·)] [DecidableEq κ] [DecidableLT κ] in
/-- Where an entry stands, seen from another one. -/
theorem Ordered.cases_of_mem {before after : List (κ × α)} {p q : κ × α}
    (ho : Ordered (before ++ p :: after)) (h : q ∈ before ++ p :: after) :
    q.1 < p.1 ∨ q = p ∨ p.1 < q.1 := by
  rw [Ordered, List.pairwise_append, List.pairwise_cons] at ho
  obtain ⟨-, ⟨hafter, -⟩, hbefore⟩ := ho
  rcases List.mem_append.1 h with hm | hm
  · exact .inl (hbefore q hm p List.mem_cons_self)
  · rcases List.mem_cons.1 hm with he | hm
    · exact .inr (.inl he)
    · exact .inr (.inr (hafter q hm))

variable [Trans (α := κ) (· < ·) (· < ·) (· < ·)]

omit [DecidableEq κ] [DecidableLT κ] in
theorem Ordered.mem_before {before after : List (κ × α)} {p q : κ × α}
    (ho : Ordered (before ++ p :: after)) (h : q ∈ before ++ p :: after) (hlt : q.1 < p.1) :
    q ∈ before := by
  rcases List.mem_append.1 h with hm | hm
  · exact hm
  · rw [Ordered, List.pairwise_append, List.pairwise_cons] at ho
    rcases List.mem_cons.1 hm with rfl | hm
    · exact absurd hlt Std.lt_irrefl
    · exact absurd (Std.lt_trans (ho.2.1.1 q hm) hlt) Std.lt_irrefl

theorem mem_insert {m : SortedMap κ α} (ho : Ordered m) {k : κ} {a : α} {p : κ × α} :
    p ∈ insert m k a ↔ p = (k, a) ∨ (p ∈ m ∧ p.1 ≠ k) := by
  induction m with
  | nil => simp [insert]
  | cons q m ih =>
    obtain ⟨k', a'⟩ := q
    simp only [Ordered, List.pairwise_cons] at ho
    unfold insert
    split
    · next hlt =>
      -- Every key from here on is above `k`, so none of them is replaced.
      have above : ∀ p ∈ (k', a') :: m, p.1 ≠ k := by
        intro p hp he
        rcases List.mem_cons.1 hp with rfl | hm
        · exact ne_of_lt hlt he.symm
        · exact ne_of_lt (Std.lt_trans hlt (ho.1 _ hm)) he.symm
      rw [List.mem_cons]
      exact or_congr_right ⟨fun hp => ⟨hp, above p hp⟩, And.left⟩
    · next hlt =>
      split
      · next he =>
        subst he
        have above : ∀ p ∈ m, p.1 ≠ k := fun p hp he => ne_of_lt (ho.1 _ hp) he.symm
        simp only [List.mem_cons]
        refine or_congr_right ⟨fun hp => ⟨.inr hp, above p hp⟩, ?_⟩
        rintro ⟨rfl | hp, hne⟩
        · exact absurd rfl hne
        · exact hp
      · next hne =>
        have below : k' ≠ k := fun he => hne he.symm
        simp only [List.mem_cons, ih ho.2]
        constructor
        · rintro (rfl | rfl | ⟨hp, hk⟩)
          · exact .inr ⟨.inl rfl, below⟩
          · exact .inl rfl
          · exact .inr ⟨.inr hp, hk⟩
        · rintro (rfl | ⟨rfl | hp, hk⟩)
          · exact .inr (.inl rfl)
          · exact .inl rfl
          · exact .inr (.inr ⟨hp, hk⟩)

omit [Std.Irrefl (α := κ) (· < ·)] [Trans (α := κ) (· < ·) (· < ·) (· < ·)] in
theorem eq_or_mem_of_mem_insert {m : SortedMap κ α} {k : κ} {a : α} {p : κ × α}
    (h : p ∈ insert m k a) : p = (k, a) ∨ p ∈ m := by
  induction m with
  | nil => exact .inl (List.mem_singleton.1 h)
  | cons q m ih =>
    obtain ⟨k', a'⟩ := q
    unfold insert at h
    split at h
    · exact List.mem_cons.1 h
    · split at h
      · exact (List.mem_cons.1 h).imp_right (List.mem_cons_of_mem _)
      · rcases List.mem_cons.1 h with rfl | later
        · exact .inr List.mem_cons_self
        · exact (ih later).imp_right (List.mem_cons_of_mem _)

/-- To put what is there in its place changes nothing. -/
theorem Ordered.insert_get? {m : SortedMap κ α} (ho : Ordered m) {k : κ} {a : α}
    (found : get? m k = some a) : m.insert k a = m := by
  have there := mem_of_get? found
  clear found
  induction m with
  | nil => cases there
  | cons q m ih =>
    obtain ⟨k', a'⟩ := q
    simp only [Ordered, List.pairwise_cons] at ho
    rcases List.mem_cons.1 there with same | later
    · cases same
      simp [SortedMap.insert, Std.lt_irrefl]
    · have above := ho.1 _ later
      have apart : ¬ k < k' := fun below => Std.lt_irrefl (Std.lt_trans below above)
      simp only [SortedMap.insert, if_neg apart, if_neg (ne_of_lt above).symm, ih ho.2 later]

/-- A key above all others goes to the end. -/
theorem insert_of_forall_lt {m : SortedMap κ α} {k : κ} {a : α} (above : ∀ p ∈ m, p.1 < k) :
    insert m k a = m ++ [(k, a)] := by
  induction m with
  | nil => rfl
  | cons p m ih =>
    have below := above p List.mem_cons_self
    have apart : ¬ k < p.1 := fun lt => Std.lt_irrefl (Std.lt_trans lt below)
    rw [insert, if_neg apart, if_neg (ne_of_lt below).symm,
      ih fun q hq => above q (List.mem_cons_of_mem _ hq), List.cons_append]

/-- Pairs in ascending order of their keys are a map as they are. -/
theorem Ordered.ofList_eq {m : SortedMap κ α} (ho : Ordered m) : ofList m = m := by
  suffices h : ∀ back front : List (κ × α), Ordered (front ++ back) →
      back.foldl (fun m p => SortedMap.insert m p.1 p.2) front = front ++ back from h m [] ho
  intro back
  induction back with
  | nil => exact fun front _ => (List.append_nil front).symm
  | cons p back ih =>
    intro front ho
    have above : ∀ q ∈ front, q.1 < p.1 := fun q hq =>
      (List.pairwise_append.1 ho).2.2 q hq p List.mem_cons_self
    have next : front ++ p :: back = (front ++ [p]) ++ back := (List.append_cons front p back)
    rw [List.foldl_cons, insert_of_forall_lt above, next]
    exact ih (front ++ [p]) (next ▸ ho)

variable [Std.Trichotomous (α := κ) (· < ·)]

theorem Ordered.insert {m : SortedMap κ α} (ho : Ordered m) (k : κ) (a : α) :
    Ordered (m.insert k a) := by
  induction m with
  | nil => exact List.pairwise_singleton ..
  | cons q m ih =>
    obtain ⟨k', a'⟩ := q
    have ho' := ho
    simp only [Ordered, List.pairwise_cons] at ho
    unfold SortedMap.insert
    split
    · next hlt =>
      refine List.pairwise_cons.2 ⟨?_, ho'⟩
      intro p hp
      rcases List.mem_cons.1 hp with rfl | hm
      · exact hlt
      · exact Std.lt_trans hlt (ho.1 _ hm)
    · next hlt =>
      split
      · next he =>
        subst he
        exact List.pairwise_cons.2 ho
      · next hne =>
        refine List.pairwise_cons.2 ⟨?_, ih ho.2⟩
        intro p hp
        rcases (mem_insert ho.2).1 hp with rfl | ⟨hm, -⟩
        · exact (Std.lt_trichotomy k' k).resolve_right fun h => h.elim (hne ·.symm) hlt
        · exact ho.1 _ hm

theorem ofList_ordered (pairs : List (κ × α)) : Ordered (ofList pairs) := by
  suffices h : ∀ m : SortedMap κ α, Ordered m →
      Ordered (pairs.foldl (fun m p => m.insert p.1 p.2) m) from h [] List.Pairwise.nil
  induction pairs with
  | nil => exact fun _ ho => ho
  | cons p pairs ih => exact fun _ ho => ih _ (ho.insert p.1 p.2)

theorem mem_of_mem_ofList {pairs : List (κ × α)} {p : κ × α} (h : p ∈ ofList pairs) :
    p ∈ pairs := by
  suffices hs : ∀ m : SortedMap κ α, Ordered m →
      p ∈ pairs.foldl (fun m p => m.insert p.1 p.2) m → p ∈ m ∨ p ∈ pairs by
    simpa using hs [] List.Pairwise.nil h
  clear h
  induction pairs with
  | nil => exact fun _ _ h => .inl h
  | cons q pairs ih =>
    intro m ho h
    rcases ih _ (ho.insert q.1 q.2) h with hm | hp
    · rcases (mem_insert ho).1 hm with rfl | ⟨hm, -⟩
      · exact .inr List.mem_cons_self
      · exact .inl hm
    · exact .inr (List.mem_cons_of_mem _ hp)

end NamedStores.SortedMap
