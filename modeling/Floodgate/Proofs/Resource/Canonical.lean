import Floodgate.Resource.Key
import Mathlib.Data.List.DropRight
import Mathlib.Data.Set.Function

/-!
# Canonical resources

Not every resource can be written as a key and read back. A name with a caret would be taken for
two fields, blank space around a name is lost, a blank application is none at all, and the two
reserved names stand for other resources. `Resource.IsCanonical` says which resources are left: names
are trimmed, no name but the last holds a caret, and no service has a reserved name.

Reading has two steps. A text is cut into five fields at its first four carets, and
`fields?_eq_some_iff` says that this undoes writing fields one after another, as long as the first
four hold no caret themselves. Then the fields are made a resource, and `isCanonical_of_ofFields?`
says that whatever comes of that is canonical. So the canonical resources are those that some key
names, and each of them is read back from its own key.
-/

set_option autoImplicit false

namespace Floodgate

/-! ## Trimmed names -/

namespace Text

/-- Trimming again changes nothing. The blank space at the end is dropped after that at the front, but
what is left by then still begins as it did. -/
theorem trimChars_trimChars (cs : List Char) : trimChars (trimChars cs) = trimChars cs := by
  have hbegins : trimChars cs <+: cs.dropWhile isBlank := List.rdropWhile_prefix isBlank _
  have hfront : (trimChars cs).dropWhile isBlank = trimChars cs := by
    refine List.dropWhile_eq_self_iff.mpr fun hpos => ?_
    rw [hbegins.getElem hpos]
    exact List.dropWhile_get_zero_not _ _ _
  calc trimChars (trimChars cs) = ((trimChars cs).dropWhile isBlank).rdropWhile isBlank := rfl
    _ = (trimChars cs).rdropWhile isBlank := by rw [hfront]
    _ = trimChars cs := List.rdropWhile_idempotent isBlank (cs.dropWhile isBlank)

theorem trim_trim (s : String) : trim (trim s) = trim s := by
  simp [trim, trimChars_trimChars]

/-- Not empty, and without blank space at either end. -/
structure IsTrimmed (s : String) : Prop where
  ne_empty : s ≠ ""
  trim_eq : trim s = s

instance (s : String) : Decidable (IsTrimmed s) :=
  decidable_of_iff (s ≠ "" ∧ trim s = s) ⟨fun h => ⟨h.1, h.2⟩, fun h => ⟨h.1, h.2⟩⟩

theorem IsTrimmed.nonBlank? {s : String} (h : IsTrimmed s) : Text.nonBlank? s = some s := by
  rw [Text.nonBlank?, h.trim_eq, if_neg h.ne_empty]

/-- A name that is not blank is what is left of it when it is trimmed. -/
theorem nonBlank?_eq_some_iff {s t : String} : nonBlank? s = some t ↔ trim s = t ∧ t ≠ "" := by
  unfold nonBlank?
  split
  · rename_i hs
    refine iff_of_false nofun ?_
    rintro ⟨rfl, hne⟩
    exact hne hs
  · rename_i hs
    rw [Option.some.injEq]
    exact ⟨fun h => ⟨h, h ▸ hs⟩, And.left⟩

/-- Every name that comes out of a text is trimmed, however it was written. -/
theorem isTrimmed_of_nonBlank? {s t : String} (h : nonBlank? s = some t) : IsTrimmed t := by
  obtain ⟨rfl, hne⟩ := nonBlank?_eq_some_iff.mp h
  exact ⟨hne, trim_trim s⟩

/-- Trimming brings in no character. -/
theorem mem_of_mem_trimChars {c : Char} {cs : List Char} (h : c ∈ trimChars cs) : c ∈ cs := by
  rw [trimChars, dropWhileEnd, List.mem_reverse] at h
  have hmem := (List.dropWhile_sublist isBlank).mem h
  exact (List.dropWhile_sublist isBlank).mem (List.mem_reverse.mp hmem)

theorem mem_of_nonBlank? {s t : String} {c : Char} (h : nonBlank? s = some t)
    (hc : c ∈ t.toList) : c ∈ s.toList := by
  obtain ⟨rfl, -⟩ := nonBlank?_eq_some_iff.mp h
  rw [trim, String.toList_ofList] at hc
  exact mem_of_mem_trimChars hc

end Text

namespace Resource

/-! ## Canonical names -/

/-- A name that can stand in any field of a key. -/
structure IsField (s : String) : Prop extends Text.IsTrimmed s where
  separator_notMem : separator ∉ s.toList

/-- A name that a service can have in a key. The reserved names would be read as other resources. -/
structure IsServiceName (s : String) : Prop extends IsField s where
  ne_globalName : s ≠ globalName
  ne_serviceDefaultName : s ≠ serviceDefaultName

/-- A resource whose names can all be written in a key. The path may hold carets, since it comes
last and takes all that is left of the text. -/
def IsCanonical : Resource → Prop
  | .global => True
  | .serviceDefault => True
  | .service s => IsServiceName s
  | .api app s p => (∀ a ∈ app, IsField a) ∧ IsServiceName s ∧ Text.IsTrimmed p

instance (s : String) : Decidable (IsField s) :=
  decidable_of_iff (Text.IsTrimmed s ∧ separator ∉ s.toList)
    ⟨fun h => ⟨h.1, h.2⟩, fun h => ⟨h.1, h.2⟩⟩

instance (s : String) : Decidable (IsServiceName s) :=
  decidable_of_iff (IsField s ∧ s ≠ globalName ∧ s ≠ serviceDefaultName)
    ⟨fun h => ⟨h.1, h.2.1, h.2.2⟩, fun h => ⟨h.1, h.2, h.3⟩⟩

instance : DecidablePred IsCanonical
  | .global => isTrue trivial
  | .serviceDefault => isTrue trivial
  | .service s => inferInstanceAs (Decidable (IsServiceName s))
  | .api app s p => inferInstanceAs
      (Decidable ((∀ a ∈ app, IsField a) ∧ IsServiceName s ∧ Text.IsTrimmed p))

theorem IsServiceName.isReserved_eq {s : String} (h : IsServiceName s) : isReserved s = false := by
  simp [isReserved, h.ne_globalName, h.ne_serviceDefaultName]

/-! ## The fields of a key -/

/-- The five fields of a key. -/
structure KeyFields where
  app : List Char := []
  address : List Char := []
  node : List Char := []
  service : List Char := []
  path : List Char := []

namespace KeyFields

/-- The fields written one after another. -/
def text (f : KeyFields) : List Char :=
  f.app ++ separator :: (f.address ++ separator :: (f.node ++ separator ::
    (f.service ++ separator :: f.path)))

/-- No field but the last holds a separator. -/
structure Separated (f : KeyFields) : Prop where
  app : separator ∉ f.app
  address : separator ∉ f.address
  node : separator ∉ f.node
  service : separator ∉ f.service

end KeyFields

/-- A text is cut at its first separator, and nowhere else. -/
theorem cut?_eq_some_iff {cs front rest : List Char} :
    cut? cs = some (front, rest) ↔ cs = front ++ separator :: rest ∧ separator ∉ front := by
  induction cs generalizing front with
  | nil => simp [cut?]
  | cons c cs ih =>
    rw [cut?]
    split
    · rename_i hc
      subst hc
      cases front with
      | nil => simp
      | cons d front => simp +contextual [eq_comm]
    · rename_i hc
      cases front with
      | nil => simp [hc]
      | cons d front =>
        simp only [Option.map_eq_some_iff, Prod.mk.injEq, List.cons.injEq, Prod.exists,
          List.cons_append, List.mem_cons, not_or]
        constructor
        · rintro ⟨front', rest', hcut, ⟨rfl, rfl⟩, rfl⟩
          obtain ⟨rfl, hno⟩ := ih.mp hcut
          exact ⟨⟨rfl, rfl⟩, fun h => hc h.symm, hno⟩
        · rintro ⟨⟨rfl, rfl⟩, -, hno⟩
          exact ⟨front, rest, ih.mpr ⟨rfl, hno⟩, ⟨rfl, rfl⟩, rfl⟩

/-- A text cut at its first four separators. -/
def fields? (cs : List Char) : Option KeyFields := do
  let (appField, cs) ← cut? cs
  let (addressField, cs) ← cut? cs
  let (nodeField, cs) ← cut? cs
  let (serviceField, pathField) ← cut? cs
  return {
    app := appField
    address := addressField
    node := nodeField
    service := serviceField
    path := pathField }

/-- **Cutting a text undoes writing its fields**, as long as no field but the last holds a
separator. -/
theorem fields?_eq_some_iff {cs : List Char} {f : KeyFields} :
    fields? cs = some f ↔ cs = f.text ∧ f.Separated := by
  constructor
  · intro h
    simp only [fields?, Option.bind_eq_bind, Option.bind_eq_some_iff, Prod.exists,
      Option.pure_def, Option.some.injEq] at h
    obtain ⟨a, cs₁, h₁, i, cs₂, h₂, n, cs₃, h₃, s, p, h₄, rfl⟩ := h
    obtain ⟨rfl, ha⟩ := cut?_eq_some_iff.mp h₁
    obtain ⟨rfl, hi⟩ := cut?_eq_some_iff.mp h₂
    obtain ⟨rfl, hn⟩ := cut?_eq_some_iff.mp h₃
    obtain ⟨rfl, hs⟩ := cut?_eq_some_iff.mp h₄
    exact ⟨rfl, ha, hi, hn, hs⟩
  · rintro ⟨rfl, hf⟩
    have hcut : ∀ {front rest : List Char}, separator ∉ front →
        cut? (front ++ separator :: rest) = some (front, rest) := fun h =>
      cut?_eq_some_iff.mpr ⟨rfl, h⟩
    simp only [fields?, KeyFields.text, hcut hf.app, hcut hf.address, hcut hf.node,
      hcut hf.service, Option.bind_eq_bind, Option.bind_some, Option.pure_def]

/-! ## From fields to a resource -/

/-- The resource that the fields of a key name. -/
def ofFields? (f : KeyFields) : Option Resource :=
  let appText := String.ofList f.app
  let serviceText := String.ofList f.service
  let pathText := String.ofList f.path
  if !Text.isAllBlank (String.ofList f.address) then none
  else
    match Text.nonBlank? (String.ofList f.node) with
    | some node =>
      if node = globalName && Text.isAllBlank appText && Text.isAllBlank serviceText &&
          Text.isAllBlank pathText then
        some .global
      else none
    | none =>
      if Text.nonBlank? serviceText = some globalName then none
      else ofParts? (some appText) (some serviceText) (some pathText)

/-- To read a key is to cut it and to read its fields. The reader does both at once. -/
theorem ofKey?_eq (text : String) : ofKey? text = (fields? text.toList).bind ofFields? := by
  unfold ofKey? fields?
  cases h₁ : cut? text.toList with
  | none => rfl
  | some c₁ =>
    cases h₂ : cut? c₁.2 with
    | none => simp [h₂]
    | some c₂ =>
      cases h₃ : cut? c₂.2 with
      | none => simp [h₂, h₃]
      | some c₃ =>
        cases h₄ : cut? c₃.2 with
        | none => simp [h₂, h₃, h₄]
        | some c₄ =>
          simp only [Option.bind_eq_bind, Option.bind_some, h₂, h₃, h₄, Option.pure_def]
          rfl

/-- What names can make: a resource that stands for a reserved name, a service, or a path of one. -/
theorem ofParts?_eq_some_cases {app name path : Option String} {r : Resource}
    (h : ofParts? app name path = some r) :
    r = .global ∨ r = .serviceDefault ∨
      ∃ s, name.bind Text.nonBlank? = some s ∧ isReserved s = false ∧
        (r = .service s ∨
          ∃ p, path.bind Text.nonBlank? = some p ∧ r = .api (app.bind Text.nonBlank?) s p) := by
  unfold ofParts? at h
  split at h
  · rename_i s happ hs hp
    rw [Option.some.injEq] at h
    split at h
    · exact Or.inl h.symm
    · rename_i hglobal
      split at h
      · exact Or.inr (Or.inl h.symm)
      · rename_i hdefault
        exact Or.inr (Or.inr ⟨s, hs, by simp [isReserved, hglobal, hdefault], Or.inl h.symm⟩)
  · rename_i s p hs hp
    split at h
    · cases h
    · rename_i hfree
      rw [Option.some.injEq] at h
      exact Or.inr (Or.inr ⟨s, hs, by simpa using hfree, Or.inr ⟨p, hp, h.symm⟩⟩)
  · cases h

theorem isField_of_nonBlank? {text : Option String} {s : String}
    (hno : ∀ t, text = some t → separator ∉ t.toList) (h : text.bind Text.nonBlank? = some s) :
    IsField s := by
  obtain ⟨t, ht, hs⟩ := Option.bind_eq_some_iff.mp h
  exact ⟨Text.isTrimmed_of_nonBlank? hs, fun hc => hno t ht (Text.mem_of_nonBlank? hs hc)⟩

/-- **What names make is canonical**, unless there is a separator in them. -/
theorem isCanonical_of_ofParts? {app name path : Option String} {r : Resource}
    (happ : ∀ t, app = some t → separator ∉ t.toList)
    (hname : ∀ t, name = some t → separator ∉ t.toList) (h : ofParts? app name path = some r) :
    r.IsCanonical := by
  rcases ofParts?_eq_some_cases h with rfl | rfl | ⟨s, hs, hfree, hr⟩
  · trivial
  · trivial
  · have hservice : IsServiceName s := by
      simp only [isReserved, Bool.or_eq_false_iff, decide_eq_false_iff_not] at hfree
      exact ⟨isField_of_nonBlank? hname hs, hfree.1, hfree.2⟩
    rcases hr with rfl | ⟨p, hp, rfl⟩
    · exact hservice
    · obtain ⟨t, -, hpath⟩ := Option.bind_eq_some_iff.mp hp
      exact ⟨fun a ha => isField_of_nonBlank? happ ha, hservice, Text.isTrimmed_of_nonBlank? hpath⟩

/-- **What the fields of a key make is canonical**, as long as they are separated. -/
theorem isCanonical_of_ofFields? {f : KeyFields} (hf : f.Separated) {r : Resource}
    (h : ofFields? f = some r) : r.IsCanonical := by
  unfold ofFields? at h
  dsimp only at h
  split at h
  · cases h
  · split at h
    · split at h
      · cases h
        trivial
      · cases h
    · split at h
      · cases h
      · refine isCanonical_of_ofParts? ?_ ?_ h
        · rintro t ⟨⟩
          rw [String.toList_ofList]
          exact hf.app
        · rintro t ⟨⟩
          rw [String.toList_ofList]
          exact hf.service

/-! ## From a resource to its fields -/

/-- The fields that the key of a resource is written from. -/
def keyFields : Resource → KeyFields
  | .global => { node := globalName.toList }
  | .serviceDefault => { service := serviceDefaultName.toList }
  | .service s => { service := s.toList }
  | .api app s p => { app := (app.getD "").toList, service := s.toList, path := p.toList }

theorem toList_joinFields (a n s p : String) :
    (joinFields a n s p).toList =
      ({ app := a.toList, node := n.toList, service := s.toList, path := p.toList } :
        KeyFields).text := by
  simp [joinFields, KeyFields.text, separator]

theorem toList_key (r : Resource) : r.key.toList = r.keyFields.text := by
  cases r <;> exact toList_joinFields _ _ _ _

/-- The names of a canonical resource can be told apart in its key. -/
theorem IsCanonical.separated {r : Resource} (h : r.IsCanonical) : r.keyFields.Separated := by
  cases r with
  | global => exact ⟨by decide, by decide, by decide, by decide⟩
  | serviceDefault => exact ⟨by decide, by decide, by decide, by decide⟩
  | service s =>
    exact ⟨List.not_mem_nil, List.not_mem_nil, List.not_mem_nil, h.separator_notMem⟩
  | api app s p =>
    obtain ⟨happ, hs, -⟩ := h
    refine ⟨?_, List.not_mem_nil, List.not_mem_nil, hs.separator_notMem⟩
    cases app with
    | none => exact List.not_mem_nil
    | some a => exact (happ a rfl).separator_notMem

/-- The fields of a canonical resource are read as that resource. Each name is trimmed already, so
trimming it loses nothing. -/
theorem IsCanonical.ofFields?_keyFields {r : Resource} (h : r.IsCanonical) :
    ofFields? r.keyFields = some r := by
  have hempty : Text.nonBlank? (String.ofList []) = none := by decide
  cases r with
  | global => decide
  | serviceDefault => decide
  | service s =>
    have hs : Text.nonBlank? s = some s := h.nonBlank?
    simp [ofFields?, keyFields, Text.isAllBlank, hempty, hs, ofParts?, h.ne_globalName,
      h.ne_serviceDefaultName]
  | api app s p =>
    obtain ⟨happ, hs, hp⟩ := h
    have happ' : Text.nonBlank? (app.getD "") = app := by
      cases app with
      | none => exact hempty
      | some a => exact (happ a rfl).nonBlank?
    simp [ofFields?, keyFields, Text.isAllBlank, hempty, happ', hs.nonBlank?, hp.nonBlank?,
      ofParts?, hs.ne_globalName, hs.isReserved_eq]

/-! ## Reading keys back -/

/-- **A canonical resource is read back from its key.** -/
theorem IsCanonical.ofKey?_key {r : Resource} (h : r.IsCanonical) : ofKey? r.key = some r := by
  rw [ofKey?_eq, toList_key, fields?_eq_some_iff.mpr ⟨rfl, h.separated⟩, Option.bind_some,
    h.ofFields?_keyFields]

/-- No key is read as anything but a canonical resource. -/
theorem isCanonical_of_ofKey? {text : String} {r : Resource} (h : ofKey? text = some r) :
    r.IsCanonical := by
  rw [ofKey?_eq] at h
  obtain ⟨f, hf, hr⟩ := Option.bind_eq_some_iff.mp h
  exact isCanonical_of_ofFields? (fields?_eq_some_iff.mp hf).2 hr

/-- **The canonical resources are those that have keys.** A resource is read back from its own key
exactly if it is canonical, and no text is read as a resource that is not. So no two canonical
resources have one key, and the canonical resources are those that some text names. -/
theorem canonical_iff_read_back :
    (∀ r : Resource, ofKey? r.key = some r ↔ r.IsCanonical) ∧
    (∀ (text : String) (r : Resource), ofKey? text = some r → r.IsCanonical) ∧
    Set.InjOn key {r | r.IsCanonical} ∧
    {r : Resource | r.IsCanonical} = {r | ∃ text, ofKey? text = some r} := by
  refine ⟨fun r => ⟨isCanonical_of_ofKey?, IsCanonical.ofKey?_key⟩,
    fun text r => isCanonical_of_ofKey?, ?_, ?_⟩
  · intro r hr r' hr' hkey
    have hread : ofKey? r'.key = some r := hkey ▸ IsCanonical.ofKey?_key hr
    exact Option.some.inj (hread.symm.trans (IsCanonical.ofKey?_key hr'))
  · ext r
    exact ⟨fun hr => ⟨r.key, IsCanonical.ofKey?_key hr⟩, fun ⟨_, hr⟩ => isCanonical_of_ofKey? hr⟩

/-- A path may hold a caret. An application that does may come back as another resource, which is a
canonical one. -/
theorem canonical_iff_read_back_carets :
    let called := api (some "shop") "orders" "/a^b"
    let shifted := api (some "shop^^^orders") "stock" "/a"
    ofKey? called.key = some called ∧ ofKey? shifted.key ≠ some shifted ∧
      ∃ r, ofKey? shifted.key = some r ∧ r.IsCanonical := by
  intro called shifted
  obtain ⟨hself, hcanonical, -⟩ := canonical_iff_read_back
  have hread : ofKey? shifted.key = some (api (some "shop") "orders" "^^stock^/a") := by decide
  exact ⟨(hself called).mpr (by decide), fun h => absurd ((hself shifted).mp h) (by decide),
    _, hread, hcanonical _ _ hread⟩

end Resource
end Floodgate
