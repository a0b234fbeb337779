import Floodgate.Json.Record
import Floodgate.Proofs.Rule.Equality
import Mathlib.Data.String.Basic

/-!
# Members of objects, and the fields of records

A document is changed in one way only: a member is set. `Record.get?_set` says what that does to the
record that the document is read as, provided that the member is a field under its own name and no
other (`Record.IsOwn`). That the members are sorted matters, for else a name might be there twice;
the members of a document are (`value?_sorted`). A field that goes by two names (`Record.HasAlias`)
holds the member of either.

The second half is about documents that are the same under `==`, which is not equality for numbers
with a point. Same documents are read as records whose values are the same, and all readers of a
field agree on same values but the one for numbers with a point, which gives same numbers.
-/

set_option autoImplicit false

namespace Floodgate
namespace Json

/-! ## Sorted members -/

/-- Members sorted by name, none of them twice. Strictly sorted is both at once. -/
def IsSorted (members : List (String × Json)) : Prop := members.Pairwise fun a b => a.1 < b.1

theorem mem_insertMember {name : String} {value : Json} {members : List (String × Json)}
    {m : String × Json} (h : m ∈ insertMember name value members) :
    m = (name, value) ∨ m ∈ members := by
  induction members with
  | nil => exact Or.inl (List.mem_singleton.mp h)
  | cons head rest ih =>
    unfold insertMember at h
    split at h
    · exact List.mem_cons.mp h
    · split at h
      · rcases List.mem_cons.mp h with e | h
        · exact Or.inl e
        · exact Or.inr (List.mem_cons_of_mem _ h)
      · rcases List.mem_cons.mp h with rfl | h
        · exact Or.inr List.mem_cons_self
        · exact (ih h).imp_right (List.mem_cons_of_mem _)

/-- The new member is found under its name, whatever was there, and nothing else is found
differently. This needs no order: an old member of the same name is replaced where it stands. -/
theorem lookup_insertMember (name : String) (value : Json) (members : List (String × Json))
    (n : String) : (insertMember name value members).lookup n =
      if n = name then some value else members.lookup n := by
  induction members with
  | nil =>
    by_cases e : n = name
    · simp [insertMember, e]
    · simp [insertMember, List.lookup_cons, beq_false_of_ne e, e]
  | cons head rest ih =>
    obtain ⟨k, v⟩ := head
    unfold insertMember
    split
    · by_cases e : n = name
      · simp [e]
      · simp [List.lookup_cons, beq_false_of_ne e, e]
    · split
      · rename_i e
        subst e
        by_cases e : n = name
        · simp [e]
        · simp [List.lookup_cons, beq_false_of_ne e, e]
      · rename_i hne
        by_cases e : n = k
        · subst e
          simp [Ne.symm hne]
        · simpa only [List.lookup_cons, beq_false_of_ne e] using ih

/-- Setting a member of an object changes that member only. This is all that marking a document as
deleted does to it. -/
theorem get?_set {j : Json} (h : ∃ members, j = obj members) (name : String) (value : Json)
    (n : String) : (j.set name value).get? n = if n = name then some value else j.get? n := by
  obtain ⟨members, rfl⟩ := h
  exact lookup_insertMember name value members n

/-- A member goes where its name belongs, so the members stay sorted. -/
theorem IsSorted.insertMember {members : List (String × Json)} (h : IsSorted members) (name : String)
    (value : Json) : IsSorted (insertMember name value members) := by
  induction members with
  | nil => exact List.pairwise_singleton _ _
  | cons head rest ih =>
    obtain ⟨hhead, hrest⟩ := List.pairwise_cons.mp h
    unfold Json.insertMember
    split
    · rename_i hlt
      refine List.pairwise_cons.mpr ⟨fun m hm => ?_, h⟩
      rcases List.mem_cons.mp hm with rfl | hm
      · exact hlt
      · exact lt_trans hlt (hhead m hm)
    · split
      · rename_i e
        exact List.pairwise_cons.mpr ⟨fun m hm => e ▸ hhead m hm, hrest⟩
      · rename_i hlt hne
        refine List.pairwise_cons.mpr ⟨fun m hm => ?_, ih hrest⟩
        rcases mem_insertMember hm with rfl | hm
        · exact lt_of_le_of_ne (not_lt.mp hlt) (Ne.symm hne)
        · exact hhead m hm

theorem sorted_canonicalMembers (members : List (String × Json)) {done : List (String × Json)}
    (h : IsSorted done) : IsSorted (canonicalMembers members done) := by
  induction members generalizing done with
  | nil => exact h
  | cons head rest ih => exact ih (h.insertMember _ _)

/-- The members of a document are sorted. They were put in order when the text was turned into a
value, so whoever handles documents can rely on it. -/
theorem value?_sorted {inside : Nat} {j : Json} {members : List (String × Json)}
    (h : j.value? inside = some (.obj members)) : IsSorted members := by
  unfold value? at h
  split at h
  · cases j with
    | obj given =>
      cases h
      exact sorted_canonicalMembers given List.Pairwise.nil
    | _ => cases h
  · cases h

/-! ## Fields -/

namespace Record

variable {fields : List Field} {members members' : List (String × Json)} {name other : String}
  {value : Json}

/-- The name of the field that a member of some name is. -/
def fieldName? (fields : List Field) (name : String) : Option String :=
  (fields.find? (·.isCalled name)).map Field.name

theorem fieldsOf_cons (fields : List Field) (k : String) (v : Json)
    (members : List (String × Json)) :
    fieldsOf fields ((k, v) :: members) =
      match fieldName? fields k with
      | some name => (name, v) :: fieldsOf fields members
      | none => fieldsOf fields members := by
  rw [fieldsOf, List.filterMap_cons, ← fieldsOf, fieldName?]
  cases fields.find? (·.isCalled k) <;> rfl

/-- A name is that of a field, and of no other, and the field goes by no other name. Whether that is
so can be computed from the list of fields. -/
def IsOwn (fields : List Field) (name : String) : Prop :=
  (∃ f ∈ fields, f.name = name) ∧
    ∀ f ∈ fields, (f.name = name → f.others = []) ∧ (f.isCalled name = true → f.name = name)

instance (fields : List Field) (name : String) : Decidable (IsOwn fields name) := by
  unfold IsOwn
  exact inferInstance

theorem IsOwn.fieldName?_self (h : IsOwn fields name) : fieldName? fields name = some name := by
  obtain ⟨f, hf, hname⟩ := h.1
  cases hfound : fields.find? (·.isCalled name) with
  | none =>
    have hcalled : f.isCalled name = true := by simp [Field.isCalled, hname]
    exact absurd hcalled (List.find?_eq_none.mp hfound f hf)
  | some g =>
    have hcalled : g.isCalled name = true :=
      List.find?_some (p := fun f : Field => f.isCalled name) hfound
    rw [fieldName?, hfound, Option.map_some,
      (h.2 g (List.mem_of_find?_eq_some hfound)).2 hcalled]

theorem IsOwn.eq_of_fieldName? (h : IsOwn fields name) (ho : fieldName? fields other = some name) :
    other = name := by
  obtain ⟨f, hf, hname⟩ := Option.map_eq_some_iff.mp ho
  have hcalled : f.isCalled other = true :=
    List.find?_some (p := fun f : Field => f.isCalled other) hf
  rw [Field.isCalled, (h.2 f (List.mem_of_find?_eq_some hf)).1 hname] at hcalled
  simpa [hname, eq_comm] using hcalled

/-- What is found under a name of its own is found under it among the members. Members that are no
field are dropped on the way, and fields with two names are renamed, but neither concerns this name.
-/
theorem IsOwn.lookup_fieldsOf (h : IsOwn fields name) (members : List (String × Json)) :
    (fieldsOf fields members).lookup name = members.lookup name := by
  induction members with
  | nil => rfl
  | cons m rest ih =>
    obtain ⟨k, v⟩ := m
    rw [fieldsOf_cons]
    by_cases e : name = k
    · subst e
      simp [h.fieldName?_self]
    · have hk : (name == k) = false := beq_false_of_ne e
      cases hname : fieldName? fields k with
      | none => simpa only [List.lookup_cons, hk] using ih
      | some n =>
        have hn : (name == n) = false :=
          beq_false_of_ne fun e' => e (h.eq_of_fieldName? (e' ▸ hname)).symm
        simpa only [List.lookup_cons, hk, hn] using ih

/-- A record is refused if a field is given twice, be it under two names. -/
theorem hasRepeats_eq_false_iff (values : List (String × Json)) :
    hasRepeats values = false ↔ (values.map Prod.fst).Nodup := by
  induction values with
  | nil => simp [hasRepeats]
  | cons v rest ih =>
    simp only [hasRepeats, Bool.or_eq_false_iff, ih, List.map_cons, List.nodup_cons,
      List.any_eq_false, decide_eq_true_eq, List.mem_map, not_exists, not_and]

/-! ## Fields with another name -/

/-- A name is that of a field that goes by one other name, and no other field goes by either. -/
def HasAlias (fields : List Field) (name other : String) : Prop :=
  (∃ f ∈ fields, f.name = name) ∧
    ∀ f ∈ fields, (f.name = name → f.others = [other]) ∧
      (f.isCalled name = true ∨ f.isCalled other = true → f.name = name)

instance (fields : List Field) (name other : String) : Decidable (HasAlias fields name other) := by
  unfold HasAlias
  exact inferInstance

theorem HasAlias.fieldName?_eq_some_iff (h : HasAlias fields name other) {k : String} :
    fieldName? fields k = some name ↔ k = name ∨ k = other := by
  constructor
  · intro hk
    obtain ⟨f, hf, hname⟩ := Option.map_eq_some_iff.mp hk
    have hcalled : f.isCalled k = true :=
      List.find?_some (p := fun f : Field => f.isCalled k) hf
    rw [Field.isCalled, (h.2 f (List.mem_of_find?_eq_some hf)).1 hname, Bool.or_eq_true,
      decide_eq_true_eq, List.contains_iff_mem, List.mem_singleton] at hcalled
    exact hcalled.imp_left fun e => e.symm.trans hname
  · intro hk
    obtain ⟨f, hf, hname⟩ := h.1
    have hcalled : f.isCalled k = true := by
      rw [Field.isCalled, (h.2 f hf).1 hname]
      rcases hk with rfl | rfl <;> simp [hname]
    cases hfound : fields.find? (·.isCalled k) with
    | none => exact absurd hcalled (List.find?_eq_none.mp hfound f hf)
    | some g =>
      have hcalled' : g.isCalled k = true :=
        List.find?_some (p := fun f : Field => f.isCalled k) hfound
      have hg : g.isCalled name = true ∨ g.isCalled other = true :=
        hk.imp (fun e : k = name => e ▸ hcalled') fun e : k = other => e ▸ hcalled'
      rw [fieldName?, hfound, Option.map_some, (h.2 g (List.mem_of_find?_eq_some hfound)).2 hg]

/-- A field that is given once is found under one of its names or the other. If both names occurred
the record would have been refused. -/
theorem HasAlias.lookup_fieldsOf (h : HasAlias fields name other)
    (hn : ((fieldsOf fields members).map Prod.fst).Nodup) :
    (fieldsOf fields members).lookup name =
      (members.lookup name).or (members.lookup other) := by
  induction members with
  | nil => rfl
  | cons m rest ih =>
    obtain ⟨k, v⟩ := m
    rw [fieldsOf_cons] at hn ⊢
    by_cases hk : k = name ∨ k = other
    · -- the field is here, so it is not given again
      rw [h.fieldName?_eq_some_iff.mpr hk] at hn ⊢
      obtain ⟨hfresh, hn⟩ := List.nodup_cons.mp hn
      have hnone : (fieldsOf fields rest).lookup name = none :=
        List.lookup_eq_none_iff.mpr fun m hm =>
          bne_iff_ne.mpr fun e => hfresh (List.mem_map.mpr ⟨m, hm, e.symm⟩)
      rw [ih hn, Option.or_eq_none_iff] at hnone
      simp only [List.lookup_cons_self]
      by_cases hname : name = k
      · simp [hname]
      · have hother : other = k := (hk.resolve_left (Ne.symm hname)).symm
        simp [List.lookup_cons, beq_false_of_ne hname, hnone.1, hother]
    · have hne : name ≠ k := fun e => hk (.inl e.symm)
      have hne' : other ≠ k := fun e => hk (.inr e.symm)
      simp only [List.lookup_cons, beq_false_of_ne hne, beq_false_of_ne hne']
      cases hf : fieldName? fields k with
      | none => 
        rw [hf] at hn
        exact ih hn
      | some n =>
        rw [hf] at hn
        have hnn : name ≠ n := fun e => hk (h.fieldName?_eq_some_iff.mp (e ▸ hf))
        simpa only [List.lookup_cons, beq_false_of_ne hnn] using ih (List.nodup_cons.mp hn).2

/-! ## Setting a member -/

theorem mem_names_set (h : IsOwn fields name) {n : String}
    (hn : n ∈ (fieldsOf fields (insertMember name value members)).map Prod.fst) :
    n = name ∨ n ∈ (fieldsOf fields members).map Prod.fst := by
  obtain ⟨⟨n, v⟩, hv, rfl⟩ := List.mem_map.mp hn
  obtain ⟨⟨k, w⟩, hm, hf⟩ := List.mem_filterMap.mp hv
  obtain ⟨f, hfound, e⟩ := Option.map_eq_some_iff.mp hf
  cases e
  rcases mem_insertMember hm with e | hm
  · cases e
    have hself := h.fieldName?_self
    rw [fieldName?, hfound] at hself
    exact Or.inl (Option.some.inj hself)
  · exact Or.inr (List.mem_map.mpr ⟨_, List.mem_filterMap.mpr ⟨_, hm, hf⟩, rfl⟩)

/-- Setting a member gives no field twice. This is where the order of the members counts: among
members out of order the name might stand a second time, further on. -/
theorem nodup_names_set (h : IsOwn fields name) (hsorted : IsSorted members)
    (hn : ((fieldsOf fields members).map Prod.fst).Nodup) :
    ((fieldsOf fields (insertMember name value members)).map Prod.fst).Nodup := by
  induction members with
  | nil =>
    rw [insertMember, fieldsOf_cons, h.fieldName?_self]
    simp [fieldsOf]
  | cons m rest ih =>
    obtain ⟨k, v⟩ := m
    obtain ⟨hhead, hrest⟩ := List.pairwise_cons.mp hsorted
    unfold insertMember
    split
    · rename_i hlt
      rw [fieldsOf_cons, h.fieldName?_self]
      refine List.nodup_cons.mpr ⟨fun hmem => ?_, hn⟩
      obtain ⟨⟨n, w⟩, hw, e⟩ := List.mem_map.mp hmem
      obtain ⟨⟨k', w'⟩, hm, hf⟩ := List.mem_filterMap.mp hw
      obtain ⟨f, hfound, e'⟩ := Option.map_eq_some_iff.mp hf
      cases e'
      -- a field of that name is a member of that name, but all members come after it
      have hk' : k' = name := h.eq_of_fieldName? (by rw [fieldName?, hfound]; exact congrArg some e)
      subst hk'
      rcases List.mem_cons.mp hm with e'' | hm
      · cases e''
        exact lt_irrefl _ hlt
      · exact lt_asymm hlt (hhead _ hm)
    · split
      · rename_i e
        subst e
        rw [fieldsOf_cons, h.fieldName?_self] at hn ⊢
        exact hn
      · rename_i hne
        rw [fieldsOf_cons] at hn ⊢
        cases hk : fieldName? fields k with
        | none =>
          rw [hk] at hn
          exact ih hrest hn
        | some n =>
          rw [hk] at hn
          obtain ⟨hfresh, hn⟩ := List.nodup_cons.mp hn
          refine List.nodup_cons.mpr ⟨fun hmem => ?_, ih hrest hn⟩
          rcases mem_names_set h hmem with e | hmem
          · exact hne (h.eq_of_fieldName? (e ▸ hk)).symm
          · exact hfresh hmem

/-- The fields of the changed object are those of the object with one field changed. -/
theorem lookup_set (h : IsOwn fields name) (members : List (String × Json)) (n : String) :
    (fieldsOf fields (insertMember name value members)).lookup n =
      if n = name then some value else (fieldsOf fields members).lookup n := by
  induction members with
  | nil =>
    rw [insertMember, fieldsOf_cons, h.fieldName?_self]
    by_cases e : n = name
    · simp [e]
    · simp [List.lookup_cons, beq_false_of_ne e, e, fieldsOf]
  | cons m rest ih =>
    obtain ⟨k, v⟩ := m
    unfold insertMember
    split
    · rw [fieldsOf_cons, h.fieldName?_self]
      by_cases e : n = name
      · simp [e]
      · simp [List.lookup_cons, beq_false_of_ne e, e]
    · split
      · rename_i e
        subst e
        rw [fieldsOf_cons, fieldsOf_cons, h.fieldName?_self]
        by_cases e : n = name
        · simp [e]
        · simp [List.lookup_cons, beq_false_of_ne e, e]
      · rename_i hne
        rw [fieldsOf_cons, fieldsOf_cons]
        cases hk : fieldName? fields k with
        | none => exact ih
        | some n' =>
          have hn' : n' ≠ name := fun e => hne (h.eq_of_fieldName? (e ▸ hk)).symm
          by_cases e : n = n'
          · subst e
            simp [hn']
          · simpa only [List.lookup_cons, beq_false_of_ne e] using ih

/-- **The record of an object in which a field is set** has the value in that field, and else what
it had before. In particular it is still a record. -/
theorem ofObject?_set (h : IsOwn fields name) (hsorted : IsSorted members) {r : Record}
    (hr : ofObject? fields (.obj members) = some r) (value : Json) :
    ∃ r', ofObject? fields (.obj (insertMember name value members)) = some r' ∧
      ∀ n, r'.get? n = if n = name then some value else r.get? n := by
  simp only [ofObject?] at hr ⊢
  split at hr
  · cases hr
  · rename_i hno
    cases hr
    have hnodup := (hasRepeats_eq_false_iff _).mp (Bool.eq_false_iff.mpr hno)
    have hno' : hasRepeats (fieldsOf fields (insertMember name value members)) = false :=
      (hasRepeats_eq_false_iff _).mpr (nodup_names_set h hsorted hnodup)
    rw [hno', if_neg Bool.false_ne_true]
    exact ⟨_, rfl, fun n => lookup_set h members n⟩

end Record

/-! ## Same values -/

theorem null_of_same {x : Json} (h : same null x = true) : x = null := by
  cases x <;> first | rfl | simp [same] at h

theorem same_null {x : Json} (h : same x null = true) : x = null := by
  cases x <;> first | rfl | simp [same] at h

/-- A reader that cannot tell same values apart. All readers of fields are like this but the one of
fractions, since only fractions can be the same without being equal. -/
def IsBlunt {α : Type} (read : Json → Option α) : Prop :=
  ∀ x y, same x y = true → read x = read y

theorem isBlunt_string? : IsBlunt string? := by
  intro x y h
  cases x <;> cases y <;> simp_all [same, string?]

theorem isBlunt_signed? : IsBlunt signed? := by
  intro x y h
  cases x <;> cases y <;> simp_all [same, signed?]

theorem isBlunt_below? (bound : Nat) : IsBlunt (below? bound) := by
  intro x y h
  cases x <;> cases y <;> simp_all [same, below?]

/-- A flag may be written as a truth value or as a number, and neither is taken for the other by the
comparison. -/
theorem isBlunt_flag? : IsBlunt flag? := by
  intro x y h
  cases x <;> cases y <;> simp_all [same, flag?]

/-- Of same values the same numbers are read. They are equal unless they are zeros of either sign. A
whole number counts as a number here and is compared as one. -/
theorem float?_of_same {x y : Json} (h : same x y = true) {a b : Float} (ha : float? x = some a)
    (hb : float? y = some b) : a = b ∨ (a == b) = true := by
  cases x <;> cases y <;> simp_all [same, float?]

namespace Record

variable {values values' : List (String × Json)} {r r' : Record}

/-- Two records with same values in the same fields. Fields that are missing must be missing in
both. -/
def Same (r r' : Record) : Prop :=
  ∀ name, (r.get? name = none ∧ r'.get? name = none) ∨
    ∃ x y, r.get? name = some x ∧ r'.get? name = some y ∧ same x y = true

/-- To keep only the fields of an object, under their first names, keeps same members the same. -/
theorem sameMembers_fieldsOf (fields : List Field) (h : sameMembers values values' = true) :
    sameMembers (fieldsOf fields values) (fieldsOf fields values') = true := by
  induction values generalizing values' with
  | nil =>
    cases values' with
    | nil => rfl
    | cons v' rest' => simp [sameMembers] at h
  | cons v rest ih =>
    cases values' with
    | nil => simp [sameMembers] at h
    | cons v' rest' =>
      obtain ⟨k, x⟩ := v
      obtain ⟨k', y⟩ := v'
      simp only [sameMembers, Bool.and_eq_true, beq_iff_eq] at h
      obtain ⟨⟨rfl, hxy⟩, hrest⟩ := h
      rw [fieldsOf_cons, fieldsOf_cons]
      cases fieldName? fields k with
      | none => exact ih hrest
      | some name => simp [sameMembers, hxy, ih hrest]

/-- What is compared member by member is found to be the same under each name. -/
theorem same_of_sameMembers (h : sameMembers values values' = true) :
    Same ⟨values⟩ ⟨values'⟩ := by
  intro name
  simp only [get?]
  induction values generalizing values' with
  | nil =>
    cases values' with
    | nil => exact Or.inl ⟨rfl, rfl⟩
    | cons v' rest' => simp [sameMembers] at h
  | cons v rest ih =>
    cases values' with
    | nil => simp [sameMembers] at h
    | cons v' rest' =>
      obtain ⟨k, x⟩ := v
      obtain ⟨k', y⟩ := v'
      simp only [sameMembers, Bool.and_eq_true, beq_iff_eq] at h
      obtain ⟨⟨rfl, hxy⟩, hrest⟩ := h
      by_cases e : name = k
      · subst e
        exact Or.inr ⟨x, y, by simp, by simp, hxy⟩
      · simpa only [List.lookup_cons, beq_false_of_ne e] using ih hrest

/-- Same objects are read as same records. So nothing that a rule file does with a document can
depend on which of two same documents it was given. -/
theorem same_of_ofObject? {fields : List Field} {members members' : List (String × Json)}
    (h : same (.obj members) (.obj members') = true)
    (hr : ofObject? fields (.obj members) = some r)
    (hr' : ofObject? fields (.obj members') = some r') : Same r r' := by
  simp only [same] at h
  simp only [ofObject?] at hr hr'
  split at hr
  · cases hr
  · split at hr'
    · cases hr'
    · cases hr
      cases hr'
      exact same_of_sameMembers (sameMembers_fieldsOf fields h)

/-- A field is read alike from same records, if its reader is blunt. -/
theorem Same.optional_eq (h : r.Same r') {α : Type} {read : Json → Option α} (hread : IsBlunt read)
    (name : String) : r.optional name read = r'.optional name read := by
  unfold optional
  rcases h name with ⟨hx, hy⟩ | ⟨x, y, hx, hy, hxy⟩
  · rw [hx, hy]
  · rw [hx, hy]
    by_cases hn : x = null
    · subst hn
      rw [null_of_same hxy]
    · have hn' : y ≠ null := fun e => hn (same_null (e ▸ hxy))
      cases x <;> cases y <;> first | contradiction | simp only [hread _ _ hxy]

theorem Same.defaulted_eq (h : r.Same r') {α : Type} {read : Json → Option α} (hread : IsBlunt read)
    (name : String) (default : α) :
    r.defaulted name default read = r'.defaulted name default read := by
  unfold defaulted
  rcases h name with ⟨hx, hy⟩ | ⟨x, y, hx, hy, hxy⟩
  · rw [hx, hy]
  · simp only [hx, hy, hread x y hxy]

end Record
end Json
end Floodgate
