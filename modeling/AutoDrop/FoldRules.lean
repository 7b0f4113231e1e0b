import Mathlib.Data.List.Induction
import Mathlib.Data.List.Nodup
import Mathlib.Data.List.ReduceOption

/-!
Two ways in which a run of commands fills a store, and what it does when it is run again.
`addFresh` appends an item if its key is new; `overwrite` replaces a value. An input that is
rejected is `none` in both.
-/

namespace FoldRules

variable {α κ : Type*}

section Fresh

variable [DecidableEq κ] (key : α → κ)

def addFresh (items : List α) : Option α → List α
  | none => items
  | some item => if key item ∈ items.map key then items else items ++ [item]

/-- The input changes nothing, now and later. -/
def Settled (items : List α) (input : Option α) : Prop :=
  ∀ item, input = some item → key item ∈ items.map key

variable {key} {items : List α} {input other : Option α}

theorem addFresh_of_settled (settled : Settled key items input) :
    addFresh key items input = items := by
  cases input with
  | none => rfl
  | some item => rw [addFresh, if_pos (settled item rfl)]

variable (key) in
theorem addFresh_keys (items : List α) (input : Option α) :
    ∃ more, addFresh key items input = items ++ more := by
  cases input with
  | none => exact ⟨[], (List.append_nil items).symm⟩
  | some item =>
      rw [addFresh]
      split
      · exact ⟨[], (List.append_nil items).symm⟩
      · exact ⟨[item], rfl⟩

omit [DecidableEq κ] in
theorem Settled.append (settled : Settled key items input) (more : List α) :
    Settled key (items ++ more) input := by
  intro item same
  rw [List.map_append]
  exact List.mem_append_left _ (settled item same)

theorem settled_addFresh (items : List α) (input : Option α) :
    Settled key (addFresh key items input) input := by
  rintro item rfl
  rw [addFresh]
  split
  · assumption
  · simp

theorem mem_addFresh {item : α} (member : item ∈ addFresh key items input) :
    item ∈ items ∨ input = some item := by
  cases input with
  | none => exact .inl member
  | some new =>
      rw [addFresh] at member
      split at member
      · exact .inl member
      · rcases List.mem_append.mp member with listed | new
        · exact .inl listed
        · exact .inr (congrArg some (List.mem_singleton.mp new).symm)

theorem nodup_addFresh (nodup : (items.map key).Nodup) :
    ((addFresh key items input).map key).Nodup := by
  cases input with
  | none => exact nodup
  | some new =>
      rw [addFresh]
      split
      · exact nodup
      · rename_i fresh
        rw [List.map_append, List.nodup_append]
        refine ⟨nodup, List.nodup_singleton _, fun first member other single => ?_⟩
        rintro rfl
        obtain rfl := List.mem_singleton.mp single
        exact fresh member

variable (key) in
theorem foldl_addFresh_append (inputs : List (Option α)) (items : List α) :
    ∃ more, inputs.foldl (addFresh key) items = items ++ more := by
  induction inputs generalizing items with
  | nil => exact ⟨[], (List.append_nil items).symm⟩
  | cons input rest ih =>
      obtain ⟨first, same⟩ := addFresh_keys key items input
      obtain ⟨later, all⟩ := ih (addFresh key items input)
      exact ⟨first ++ later, by rw [List.foldl_cons, all, same, List.append_assoc]⟩

theorem settled_foldl (inputs : List (Option α)) (items : List α) :
    ∀ input ∈ inputs, Settled key (inputs.foldl (addFresh key) items) input := by
  induction inputs generalizing items with
  | nil => simp
  | cons first rest ih =>
      intro input member
      rcases List.mem_cons.mp member with rfl | member
      · obtain ⟨more, all⟩ := foldl_addFresh_append key rest (addFresh key items input)
        rw [List.foldl_cons, all]
        exact (settled_addFresh items input).append more
      · exact ih _ input member

theorem foldl_of_settled {inputs : List (Option α)}
    (settled : ∀ input ∈ inputs, Settled key items input) :
    inputs.foldl (addFresh key) items = items := by
  induction inputs with
  | nil => rfl
  | cons input rest ih =>
      rw [List.foldl_cons, addFresh_of_settled (settled input (by simp))]
      exact ih fun other member => settled other (List.mem_cons_of_mem _ member)

theorem foldl_addFresh_twice (inputs : List (Option α)) (items : List α) :
    inputs.foldl (addFresh key) (inputs.foldl (addFresh key) items) =
      inputs.foldl (addFresh key) items :=
  foldl_of_settled (settled_foldl inputs items)

theorem foldl_addFresh_nodup {news : List α} (nodup : ((items ++ news).map key).Nodup) :
    (news.map some).foldl (addFresh key) items = items ++ news := by
  induction news generalizing items with
  | nil => simp
  | cons first rest ih =>
      have fresh : key first ∉ items.map key := by
        rw [List.map_append, List.nodup_append] at nodup
        intro listed
        exact nodup.2.2 _ listed _ (by simp) rfl
      rw [List.map_cons, List.foldl_cons, addFresh, if_neg fresh, ih]
      · simp
      · simpa using nodup

variable (key) in
theorem length_addFresh_le (items : List α) (input : Option α) :
    (addFresh key items input).length ≤ items.length + 1 := by
  cases input with
  | none => simp [addFresh]
  | some item =>
      rw [addFresh]
      split <;> simp

variable (key) in
theorem length_foldl_le (inputs : List (Option α)) (items : List α) :
    (inputs.foldl (addFresh key) items).length ≤ items.length + inputs.length := by
  induction inputs generalizing items with
  | nil => simp
  | cons input rest ih =>
      have first := length_addFresh_le key items input
      have later := ih (addFresh key items input)
      rw [List.foldl_cons, List.length_cons]
      omega

/-- As many items as inputs are added only if each input added its own. -/
theorem inputs_of_length {inputs : List (Option α)} {news : List α}
    (all : inputs.foldl (addFresh key) items = items ++ news)
    (length : news.length = inputs.length) : inputs = news.map some := by
  induction inputs generalizing items news with
  | nil =>
      obtain rfl := List.length_eq_zero_iff.mp length
      rfl
  | cons input rest ih =>
      rw [List.foldl_cons] at all
      have bound := length_foldl_le key rest (addFresh key items input)
      rw [all, List.length_append] at bound
      cases input with
      | none =>
          simp only [addFresh, List.length_cons] at bound length
          omega
      | some item =>
          by_cases known : key item ∈ items.map key
          · simp only [addFresh, known, if_true, List.length_cons] at bound length
            omega
          · rw [addFresh, if_neg known] at all
            obtain ⟨more, grown⟩ := foldl_addFresh_append key rest (items ++ [item])
            rw [grown, List.append_assoc] at all
            obtain rfl := List.append_cancel_left all
            rw [List.singleton_append, List.map_cons,
              ih grown (by simpa using length)]

/-- The first item of each key, in order. -/
structure Firsts (key : α → κ) (all items : List α) : Prop where
  sublist : items.Sublist all
  nodup : (items.map key).Nodup
  complete : ∀ item ∈ all, key item ∈ items.map key
  first : ∀ item ∈ items, all.find? (fun other => decide (key other = key item)) = some item

variable (key) in
def firsts (all : List α) : List α := (all.map some).foldl (addFresh key) []

variable (key) in
theorem firsts_concat (all : List α) (last : α) :
    firsts key (all ++ [last]) = addFresh key (firsts key all) (some last) := by
  rw [firsts, firsts, List.map_append, List.foldl_append]
  rfl

theorem Firsts.known {all : List α} {last : α} (firsts : Firsts key all items)
    (known : key last ∈ items.map key) : Firsts key (all ++ [last]) items where
  sublist := firsts.sublist.trans (List.sublist_append_left all [last])
  nodup := firsts.nodup
  complete := by
    intro item member
    rcases List.mem_append.mp member with earlier | new
    · exact firsts.complete item earlier
    · rwa [List.mem_singleton.mp new]
  first := by
    intro item member
    rw [List.find?_append, firsts.first item member]
    rfl

theorem Firsts.fresh {all : List α} {last : α} (firsts : Firsts key all items)
    (fresh : key last ∉ items.map key) : Firsts key (all ++ [last]) (items ++ [last]) where
  sublist := firsts.sublist.append_right [last]
  nodup := by
    have added : addFresh key items (some last) = items ++ [last] := if_neg fresh
    exact added ▸ nodup_addFresh firsts.nodup
  complete := by
    intro item member
    rw [List.map_append, List.mem_append]
    rcases List.mem_append.mp member with earlier | new
    · exact .inl (firsts.complete item earlier)
    · exact .inr (List.mem_map.mpr ⟨item, new, rfl⟩)
  first := by
    intro item member
    rw [List.find?_append]
    rcases List.mem_append.mp member with earlier | new
    · rw [firsts.first item earlier]
      rfl
    · obtain rfl := List.mem_singleton.mp new
      have none : all.find? (fun other => decide (key other = key item)) = none := by
        rw [List.find?_eq_none]
        intro other listed same
        exact fresh (of_decide_eq_true same ▸ firsts.complete other listed)
      rw [none]
      simp

variable (key) in
theorem firsts_first (all : List α) : Firsts key all (firsts key all) := by
  induction all using List.reverseRecOn with
  | nil => exact ⟨List.Sublist.refl _, List.nodup_nil, nofun, nofun⟩
  | append_singleton all last ih =>
      rw [firsts_concat, addFresh]
      split
      · next known => exact ih.known known
      · next fresh => exact ih.fresh fresh

theorem firsts_map {β : Type*} (f : β → α) (all : List β) :
    firsts key (all.map f) = (firsts (key ∘ f) all).map f := by
  induction all using List.reverseRecOn with
  | nil => rfl
  | append_singleton all last ih =>
      rw [List.map_append, List.map_singleton, firsts_concat, firsts_concat, ih, addFresh, addFresh,
        List.map_map]
      rw [apply_ite (List.map f), List.map_append, List.map_singleton]
      rfl

end Fresh

section Overwrite

theorem foldl_overwrite (inputs : List (Option α)) (value : α) :
    inputs.foldl (fun value input => input.getD value) value =
      (inputs.reduceOption.getLast?).getD value := by
  induction inputs generalizing value with
  | nil => rfl
  | cons input rest ih =>
      rw [List.foldl_cons, ih]
      cases input with
      | none => rfl
      | some first =>
          rw [List.reduceOption_cons_of_some, List.getLast?_cons]
          rfl

theorem foldl_overwrite_twice (inputs : List (Option α)) (value : α) :
    inputs.foldl (fun value input => input.getD value)
        (inputs.foldl (fun value input => input.getD value) value) =
      inputs.foldl (fun value input => input.getD value) value := by
  rw [foldl_overwrite, foldl_overwrite]
  cases inputs.reduceOption.getLast? <;> rfl

end Overwrite

end FoldRules
