import MessageFormat.Value.Order

/-!
# Values that can be sorted

Sorting compares values, and comparing may be a misuse. If each two keys can be compared,
sorting comes to an end without one, and what comes out are the items that went in
(`Value.sortedBy_perm`). The keys that are texts can be compared, so texts are always sorted,
and joined into one.
-/

namespace MessageFormat.Value

section Sorting

variable {α : Type} {key : α → Value} {P : α → Prop}

/-- Each two keys of such items can be compared. -/
def Comparable (key : α → Value) (P : α → Prop) : Prop :=
  ∀ x y, P x → P y → ∃ b, before? (key x) (key y) = .ok b

variable (hkeys : Comparable key P)
include hkeys

theorem takeDescending_perm
    (items : List α) (hitems : ∀ x ∈ items, P x) {last : α} (hlast : P last) (taken : List α) :
    ∃ ordered others, takeDescending key last taken items = .ok (ordered, others) ∧
      (ordered ++ others).Perm (taken ++ items) := by
  induction items generalizing last taken with
  | nil => exact ⟨taken, [], rfl, .refl _⟩
  | cons x rest ih =>
      have hx := hitems x List.mem_cons_self
      obtain ⟨b, hbefore⟩ := hkeys x last hx hlast
      cases b with
      | true =>
          obtain ⟨ordered, others, htake, hperm⟩ :=
            ih (fun y hy => hitems y (List.mem_cons_of_mem _ hy)) hx (x :: taken)
          refine ⟨ordered, others, ?_, hperm.trans List.perm_middle.symm⟩
          simpa [takeDescending, hbefore, bind, Except.bind] using htake
      | false =>
          refine ⟨taken, x :: rest, ?_, .refl _⟩
          simp [takeDescending, hbefore, bind, Except.bind, pure, Except.pure]

theorem takeAscending_perm
    (items : List α) (hitems : ∀ x ∈ items, P x) {last : α} (hlast : P last) :
    ∃ ordered others, takeAscending key last items = .ok (ordered, others) ∧
      (ordered ++ others).Perm items := by
  induction items generalizing last with
  | nil => exact ⟨[], [], rfl, .refl _⟩
  | cons x rest ih =>
      have hx := hitems x List.mem_cons_self
      obtain ⟨b, hbefore⟩ := hkeys x last hx hlast
      cases b with
      | true =>
          refine ⟨[], x :: rest, ?_, .refl _⟩
          simp [takeAscending, hbefore, bind, Except.bind, pure, Except.pure]
      | false =>
          obtain ⟨ordered, others, htake, hperm⟩ :=
            ih (fun y hy => hitems y (List.mem_cons_of_mem _ hy)) hx
          refine ⟨x :: ordered, others, ?_, hperm.cons x⟩
          simp [takeAscending, hbefore, htake, bind, Except.bind, pure, Except.pure]

theorem takeOrdered_perm
    (items : List α) (hitems : ∀ x ∈ items, P x) :
    ∃ ordered others, takeOrdered key items = .ok (ordered, others) ∧
      (ordered ++ others).Perm items := by
  match items with
  | [] => exact ⟨[], [], rfl, .refl _⟩
  | [x] => exact ⟨[x], [], rfl, .refl _⟩
  | x :: y :: rest =>
      have hx := hitems x List.mem_cons_self
      have hy := hitems y (by simp)
      have hrest : ∀ z ∈ rest, P z := fun z hz => hitems z (by simp [hz])
      obtain ⟨b, hbefore⟩ := hkeys y x hy hx
      cases b with
      | true =>
          obtain ⟨ordered, others, htake, hperm⟩ := takeDescending_perm hkeys rest hrest hy [y, x]
          refine ⟨ordered, others, ?_, hperm.trans (.swap x y rest)⟩
          simpa [takeOrdered, hbefore, bind, Except.bind] using htake
      | false =>
          obtain ⟨ordered, others, htake, hperm⟩ := takeAscending_perm hkeys rest hrest hy
          refine ⟨x :: y :: ordered, others, ?_, (hperm.cons y).cons x⟩
          simp [takeOrdered, hbefore, htake, bind, Except.bind, pure, Except.pure]

theorem insertOrdered_perm
    {x : α} (hx : P x) (items : List α) (hitems : ∀ y ∈ items, P y) :
    ∃ sorted, insertOrdered key x items = .ok sorted ∧ sorted.Perm (x :: items) := by
  induction hlength : items.length using Nat.strongRecOn generalizing items with
  | ind n ih =>
  subst hlength
  have hsplit := List.take_append_drop (items.length / 2) items
  rw [insertOrdered]
  split
  · next hdrop =>
      -- Only a list without items has no middle.
      have hnil : items = [] := by
        rw [List.drop_eq_nil_iff] at hdrop
        rw [← List.length_eq_zero_iff]
        omega
      exact ⟨[x], rfl, by rw [hnil]⟩
  · next middle after hdrop =>
      rw [hdrop] at hsplit
      have hmem : ∀ y, y ∈ items.take (items.length / 2) ∨ y ∈ middle :: after → P y := by
        intro y hy
        exact hitems y (hsplit ▸ List.mem_append.mpr hy)
      have hlt : items.length / 2 < items.length ∧ after.length < items.length := by
        have hlen := congrArg List.length hdrop
        rw [List.length_drop, List.length_cons] at hlen
        omega
      obtain ⟨b, hbefore⟩ := hkeys x middle hx (hmem middle (Or.inr List.mem_cons_self))
      cases b with
      | true =>
          obtain ⟨front, hfront, hperm⟩ := ih (items.take (items.length / 2)).length
            (by rw [List.length_take]; omega) _ (fun y hy => hmem y (Or.inl hy)) rfl
          refine ⟨front ++ middle :: after, ?_, ?_⟩
          · simp [hbefore, hfront, bind, Except.bind, pure, Except.pure]
          · have happend := hperm.append_right (middle :: after)
            rwa [List.cons_append, hsplit] at happend
      | false =>
          obtain ⟨back, hback, hperm⟩ := ih after.length hlt.2 after
            (fun y hy => hmem y (Or.inr (List.mem_cons_of_mem _ hy))) rfl
          refine ⟨items.take (items.length / 2) ++ middle :: back, ?_, ?_⟩
          · simp [hbefore, hback, bind, Except.bind, pure, Except.pure]
          · have happend := (hperm.cons middle).append_left (items.take (items.length / 2))
            refine happend.trans ?_
            have hmove : (items.take (items.length / 2) ++ [middle] ++ x :: after).Perm
                (x :: (items.take (items.length / 2) ++ [middle] ++ after)) :=
              List.perm_middle
            simpa [hsplit] using hmove

theorem foldlM_insertOrdered_perm
    (others ordered : List α) (hitems : ∀ x ∈ ordered ++ others, P x) :
    ∃ sorted, others.foldlM (fun sorted x => insertOrdered key x sorted) ordered = .ok sorted ∧
      sorted.Perm (ordered ++ others) := by
  induction others generalizing ordered with
  | nil => exact ⟨ordered, rfl, by simp⟩
  | cons x others ih =>
      obtain ⟨more, hmore, hmoved⟩ := insertOrdered_perm hkeys (hitems x (by simp)) ordered
        (fun y hy => hitems y (by simp [hy]))
      have hsame : (more ++ others).Perm (ordered ++ x :: others) :=
        (hmoved.append_right others).trans List.perm_middle.symm
      obtain ⟨sorted, hsorted, hrest⟩ := ih more fun y hy => hitems y (hsame.mem_iff.mp hy)
      exact ⟨sorted, by simpa [hmore, bind, Except.bind] using hsorted, hrest.trans hsame⟩

/-- Items whose keys can be compared are sorted, and only change places. -/
theorem sortedBy_perm
    (items : List α) (hitems : ∀ x ∈ items, P x) :
    ∃ sorted, sortedBy key items = .ok sorted ∧ sorted.Perm items := by
  obtain ⟨ordered, others, htake, hperm⟩ := takeOrdered_perm hkeys items hitems
  obtain ⟨sorted, hsorted, hrest⟩ := foldlM_insertOrdered_perm hkeys others ordered
    fun x hx => hitems x (hperm.mem_iff.mp hx)
  refine ⟨sorted, ?_, hrest.trans hperm⟩
  simpa [sortedBy, htake, bind, Except.bind] using hsorted

end Sorting

/-- Texts are sorted. -/
theorem sorted_texts
    {values : List Value} (h : ∀ v ∈ values, ∃ s, v = .str s) :
    ∃ ordered, sorted values = .ok ordered ∧ ∀ v ∈ ordered, ∃ s, v = .str s := by
  have hkeys : Comparable id fun v => ∃ s, v = .str s := by
    rintro _ _ ⟨s, rfl⟩ ⟨t, rfl⟩
    exact ⟨_, rfl⟩
  obtain ⟨ordered, hsorted, hperm⟩ := sortedBy_perm hkeys values h
  exact ⟨ordered, hsorted, fun v hv => h v (hperm.mem_iff.mp hv)⟩

/-- Where every item gives a result, all of them do together. -/
theorem mapM_map_ok
    {α β γ ε : Type} {f : α → Except ε β} {items : List α} (h : ∀ x ∈ items, ∃ y, f x = .ok y)
    (g : List β → γ) :
    ∃ c, (do let results ← items.mapM f; return g results) = .ok c := by
  have hall : ∃ results, items.mapM f = .ok results := by
    induction items with
    | nil => exact ⟨[], rfl⟩
    | cons x rest ih =>
        obtain ⟨y, hy⟩ := h x List.mem_cons_self
        obtain ⟨results, hrest⟩ := ih fun z hz => h z (List.mem_cons_of_mem _ hz)
        exact ⟨y :: results, by rw [List.mapM_cons, hy, hrest]; rfl⟩
  obtain ⟨results, hresults⟩ := hall
  exact ⟨g results, by rw [hresults]; rfl⟩

/-- Texts are joined. -/
theorem joined_texts
    (between : String) {values : List Value} (h : ∀ v ∈ values, ∃ s, v = .str s) :
    ∃ text, joined between values = .ok text := by
  refine mapM_map_ok ?_ (String.intercalate between)
  rintro ⟨v, i⟩ hv
  obtain ⟨s, rfl⟩ := h v (List.fst_mem_of_mem_zipIdx hv)
  exact ⟨s, rfl⟩

end MessageFormat.Value
