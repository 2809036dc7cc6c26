/-!
# Lists sorted by name

Values under names, in ascending order of the names, each name once.
-/

namespace SessionGuard.Sorted

variable {α : Type}

/-- The list with a value put under a name, in place of the one there. -/
def insert (k : String) (v : α) : List (String × α) → List (String × α)
  | [] => [(k, v)]
  | e :: rest =>
    if k = e.1 then (k, v) :: rest
    else if k < e.1 then (k, v) :: e :: rest
    else e :: insert k v rest

/-- The value under a name. -/
def get? (k : String) (entries : List (String × α)) : Option α :=
  (entries.find? fun e => e.1 == k).map (·.2)

/-- The list without a name. -/
def erase (k : String) (entries : List (String × α)) : List (String × α) :=
  entries.filter fun e => e.1 != k

/-- The values under names, a later one in place of an earlier one. -/
def ofList (entries : List (String × α)) : List (String × α) :=
  entries.foldl (fun known e => insert e.1 e.2 known) []

theorem get?_insert_self (k : String) (v : α) (entries : List (String × α)) :
    get? k (insert k v entries) = some v := by
  induction entries with
  | nil => simp [insert, get?]
  | cons e rest ih =>
    unfold insert
    split
    · simp [get?]
    · split
      · simp [get?]
      next hne _ =>
        have : (e.1 == k) = false := by simp [Ne.symm hne]
        simpa [get?, List.find?_cons, this] using ih

theorem get?_insert_of_ne {k l : String} (h : l ≠ k) (v : α) (entries : List (String × α)) :
    get? l (insert k v entries) = get? l entries := by
  have hk : (k == l) = false := by simp [Ne.symm h]
  induction entries with
  | nil => simp [insert, get?, hk]
  | cons e rest ih =>
    unfold insert
    split
    next he => subst he; simp [get?, hk]
    next _ =>
      split
      · simp [get?, hk]
      · by_cases hel : e.1 = l
        · simp [get?, hel]
        · have : (e.1 == l) = false := by simp [hel]
          simpa [get?, List.find?_cons, this] using ih

theorem get?_erase_self (k : String) (entries : List (String × α)) :
    get? k (erase k entries) = none := by
  simp [get?, erase, List.find?_eq_none]

theorem get?_erase_of_ne {k l : String} (h : l ≠ k) (entries : List (String × α)) :
    get? l (erase k entries) = get? l entries := by
  unfold get? erase
  rw [List.find?_filter]
  congr 1
  refine congrArg (fun p => List.find? p entries) (funext fun e => ?_)
  by_cases he : e.1 = l <;> simp [he, h]

/-! ## Order -/

/-- The names ascend, so that each stands once. -/
def Ascending (entries : List (String × α)) : Prop := entries.Pairwise fun e f => e.1 < f.1

theorem mem_insert {k : String} {v : α} {e : String × α} {entries : List (String × α)}
    (h : e ∈ insert k v entries) : e = (k, v) ∨ e ∈ entries := by
  induction entries with
  | nil => simpa [insert] using h
  | cons f rest ih =>
    unfold insert at h
    split at h
    · rcases List.mem_cons.1 h with h | h
      · exact .inl h
      · exact .inr (List.mem_cons_of_mem _ h)
    · split at h
      · exact List.mem_cons.1 h
      · rcases List.mem_cons.1 h with rfl | h
        · exact .inr List.mem_cons_self
        · exact (ih h).imp_right (List.mem_cons_of_mem _)

theorem ascending_insert {entries : List (String × α)} (h : Ascending entries) (k : String)
    (v : α) : Ascending (insert k v entries) := by
  induction entries with
  | nil => exact List.pairwise_singleton _ _
  | cons e rest ih =>
    obtain ⟨he, hrest⟩ := List.pairwise_cons.1 h
    unfold insert
    split
    · next hk =>
      subst hk
      exact List.pairwise_cons.2 ⟨he, hrest⟩
    · next hne =>
      split
      · next hlt =>
        refine List.pairwise_cons.2 ⟨fun f hf => ?_, h⟩
        rcases List.mem_cons.1 hf with rfl | hf
        · exact hlt
        · exact String.lt_trans hlt (he f hf)
      · next hnlt =>
        refine List.pairwise_cons.2 ⟨fun f hf => ?_, ih hrest⟩
        rcases mem_insert hf with rfl | hf
        · exact Std.lt_of_le_of_ne (String.not_lt.1 hnlt) (Ne.symm hne)
        · exact he f hf

theorem ascending_ofList (entries : List (String × α)) : Ascending (ofList entries) := by
  suffices h : ∀ known : List (String × α), Ascending known →
      Ascending (entries.foldl (fun known e => insert e.1 e.2 known) known) from
    h [] List.Pairwise.nil
  induction entries with
  | nil => exact fun _ hk => hk
  | cons e rest ih => exact fun known hk => ih _ (ascending_insert hk e.1 e.2)

theorem insert_of_forall_gt {k : String} {v : α} {entries : List (String × α)}
    (h : ∀ e ∈ entries, e.1 < k) : insert k v entries = entries ++ [(k, v)] := by
  induction entries with
  | nil => rfl
  | cons e rest ih =>
    have hlt := h e List.mem_cons_self
    have hne : k ≠ e.1 := fun hk => String.lt_irrefl _ (hk ▸ hlt)
    have hnlt : ¬ k < e.1 := fun hk => String.lt_irrefl _ (String.lt_trans hk hlt)
    rw [insert, if_neg hne, if_neg hnlt, ih fun f hf => h f (List.mem_cons_of_mem _ hf)]
    rfl

/-- Values that are sorted already stay as they are. -/
theorem ofList_of_ascending {entries : List (String × α)} (h : Ascending entries) :
    ofList entries = entries := by
  suffices hknown : ∀ known : List (String × α), Ascending (known ++ entries) →
      entries.foldl (fun known e => insert e.1 e.2 known) known = known ++ entries from
    hknown [] h
  clear h
  induction entries with
  | nil => exact fun known _ => (List.append_nil known).symm
  | cons e rest ih =>
    intro known h
    have hbelow : ∀ f ∈ known, f.1 < e.1 := fun f hf =>
      (List.pairwise_append.1 h).2.2 f hf e List.mem_cons_self
    rw [List.foldl_cons, insert_of_forall_gt hbelow,
      ih (known ++ [e]) (by rwa [List.append_assoc, List.singleton_append]), List.append_assoc,
      List.singleton_append]

/-- Of two values put under one name the second one counts. -/
theorem insert_insert (k : String) (v w : α) (entries : List (String × α)) :
    insert k v (insert k w entries) = insert k v entries := by
  induction entries with
  | nil => simp [insert]
  | cons e rest ih =>
    by_cases hk : k = e.1
    · simp [insert, hk]
    · by_cases hlt : k < e.1
      · simp [insert, hk, hlt]
      · simp [insert, hk, hlt, ih]

theorem erase_cons_self (e : String × α) (entries : List (String × α)) :
    erase e.1 (e :: entries) = erase e.1 entries := by
  simp [erase]

theorem erase_cons_of_ne {k : String} {e : String × α} (h : k ≠ e.1)
    (entries : List (String × α)) : erase k (e :: entries) = e :: erase k entries := by
  have hb : (e.1 != k) = true := by simpa using Ne.symm h
  exact List.filter_cons_of_pos hb

theorem erase_insert (k : String) (v : α) (entries : List (String × α)) :
    erase k (insert k v entries) = erase k entries := by
  induction entries with
  | nil => exact erase_cons_self (k, v) []
  | cons e rest ih =>
    unfold insert
    split
    · next hk =>
      subst hk
      rw [erase_cons_self e, erase_cons_self (e.1, v)]
    · next hne =>
      split
      · exact erase_cons_self (k, v) (e :: rest)
      · rw [erase_cons_of_ne hne, erase_cons_of_ne hne, ih]

theorem erase_erase (k : String) (entries : List (String × α)) :
    erase k (erase k entries) = erase k entries := by
  simp [erase]

theorem insert_of_forall_lt {k : String} {v : α} {entries : List (String × α)}
    (h : ∀ e ∈ entries, k < e.1) : insert k v entries = (k, v) :: entries := by
  cases entries with
  | nil => rfl
  | cons e rest =>
    have hlt : k < e.1 := h e List.mem_cons_self
    have hne : k ≠ e.1 := fun hk => String.lt_irrefl _ (hk ▸ hlt)
    simp [insert, hne, hlt]

theorem erase_of_forall_lt {k : String} {entries : List (String × α)}
    (h : ∀ e ∈ entries, k < e.1) : erase k entries = entries := by
  refine List.filter_eq_self.2 fun e he => ?_
  have hne : e.1 ≠ k := fun hk => String.lt_irrefl _ (hk ▸ h e he)
  simpa using hne

/-- A value that has been taken out is put back in its place. -/
theorem insert_erase {entries : List (String × α)} (h : Ascending entries) (k : String) (v : α) :
    insert k v (erase k entries) = insert k v entries := by
  induction entries with
  | nil => rfl
  | cons e rest ih =>
    obtain ⟨he, hrest⟩ := List.pairwise_cons.1 h
    by_cases hk : k = e.1
    · subst hk
      rw [erase_cons_self, erase_of_forall_lt he, insert_of_forall_lt he]
      simp [insert]
    · rw [erase_cons_of_ne hk]
      unfold insert
      rw [if_neg hk, if_neg hk, ih hrest]
      split
      · next hlt => rw [erase_of_forall_lt fun f hf => String.lt_trans hlt (he f hf)]
      · rfl

end SessionGuard.Sorted
