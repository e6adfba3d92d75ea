import SignedConsole.Json.Shape

namespace SignedConsole.Json

variable {name : String} {v : Json} {members : List (Option String × Json)}

/-- The last member of a name, whatever stands in front of it. -/
def Last (name : String) (v : Json) (members : List (Option String × Json)) : Prop :=
  ∃ front back, members = front ++ (some name, v) :: back ∧ ∀ m ∈ back, m.1 ≠ some name

/-- The only member of a name. -/
def Once (name : String) (v : Json) (members : List (Option String × Json)) : Prop :=
  ∃ front back, members = front ++ (some name, v) :: back ∧ ∀ m ∈ front ++ back, m.1 ≠ some name

theorem last_iff : Last name v members ↔ lastMember? name (.object members) = some v := by
  simp only [lastMember?, Option.map_eq_some_iff, List.find?_eq_some_iff_append]
  constructor
  · rintro ⟨front, back, rfl, hback⟩
    refine ⟨(some name, v), ⟨by simp, back.reverse, front.reverse, by simp, ?_⟩, rfl⟩
    intro m hm
    simpa using hback m (List.mem_reverse.mp hm)
  · rintro ⟨⟨key, w⟩, ⟨hkey, behind, before, hcut, hbehind⟩, rfl⟩
    obtain rfl : key = some name := by simpa using hkey
    refine ⟨before.reverse, behind.reverse, ?_, ?_⟩
    · have hmembers := congrArg List.reverse hcut
      simpa using hmembers
    · intro m hm
      simpa using hbehind m (List.mem_reverse.mp hm)

theorem once_iff :
    Once name v members ↔ (members.filter fun m => m.1 == some name) = [(some name, v)] := by
  rw [List.filter_eq_cons_iff]
  constructor
  · rintro ⟨front, back, rfl, hothers⟩
    refine ⟨front, back, rfl, fun m hm => ?_, by simp, List.filter_eq_nil_iff.mpr fun m hm => ?_⟩
    · simpa using hothers m (List.mem_append_left _ hm)
    · simpa using hothers m (List.mem_append_right _ hm)
  · rintro ⟨front, back, rfl, hfront, -, hback⟩
    refine ⟨front, back, rfl, fun m hm => ?_⟩
    rcases List.mem_append.mp hm with hm | hm
    · simpa using hfront m hm
    · simpa using List.filter_eq_nil_iff.mp hback m hm

theorem text_eq_some_iff {j : Json} {t : String} : j.text? = some t ↔ j = .ofString t := by
  cases j <;> simp [text?, ofString]

variable {names : List String} {front back : List (Option String × Json)}

/-- The members of an object by their names, if all of them have one. -/
def named? (members : List (Option String × Json)) : Option (List (String × Json)) :=
  members.mapM fun m => return (← m.1, m.2)

theorem fields_object (names : List String) (members : List (Option String × Json)) :
    fields? names (.object members) = (named? members).bind fun ms =>
      if names.all fun name => (ms.filter fun m => m.1 == name).length ≤ 1 then
        some fun name => ms.lookup name
      else none := rfl

theorem named_cons (key : Option String) (v : Json) (members : List (Option String × Json)) :
    named? ((key, v) :: members) =
      key.bind fun k => (named? members).map fun ms => (k, v) :: ms := by
  rw [named?, List.mapM_cons]
  change (key.bind fun k => some (k, v)).bind
    (fun m => (named? members).bind fun ms => some (m :: ms)) = _
  cases key with
  | none => rfl
  | some k => cases named? members <;> rfl

theorem named_append (front back : List (Option String × Json)) :
    named? (front ++ back) =
      (named? front).bind fun fs => (named? back).map fun bs => fs ++ bs := by
  induction front with
  | nil =>
    change named? back = (named? back).map fun bs => bs
    exact Option.map_id'.symm
  | cons m front ih =>
    obtain ⟨key, v⟩ := m
    rw [List.cons_append, named_cons, named_cons, ih]
    cases key with
    | none => rfl
    | some k => cases named? front <;> cases named? back <;> rfl

theorem named_mem {ms : List (String × Json)} (h : named? members = some ms) {m : String × Json} :
    m ∈ ms ↔ (some m.1, m.2) ∈ members := by
  induction members generalizing ms with
  | nil =>
    cases h
    simp
  | cons n members ih =>
    obtain ⟨key, v⟩ := n
    rw [named_cons] at h
    obtain ⟨k, rfl, h⟩ := Option.bind_eq_some_iff.mp h
    obtain ⟨rest, hrest, rfl⟩ := Option.map_eq_some_iff.mp h
    simp only [List.mem_cons, ih hrest, Prod.ext_iff, Option.some.injEq]

theorem named_isSome_iff : (named? members).isSome = true ↔ none ∉ members.map Prod.fst := by
  induction members with
  | nil => decide
  | cons m members ih =>
    obtain ⟨key, v⟩ := m
    rw [named_cons]
    cases key with
    | none => simp
    | some k => simpa using ih

theorem named_keys {ms : List (String × Json)} (h : named? members = some ms) :
    members.map Prod.fst = ms.map fun m => some m.1 := by
  induction members generalizing ms with
  | nil =>
    cases h
    rfl
  | cons m members ih =>
    obtain ⟨key, v⟩ := m
    rw [named_cons] at h
    obtain ⟨k, rfl, h⟩ := Option.bind_eq_some_iff.mp h
    obtain ⟨rest, hrest, rfl⟩ := Option.map_eq_some_iff.mp h
    rw [List.map_cons, List.map_cons, ih hrest]

/-- An object is accepted as a record by the names of its members alone: they are texts, and none of
those that count stands twice. -/
theorem fields_isSome_iff : (fields? names (.object members)).isSome = true ↔
    none ∉ members.map Prod.fst ∧
      ∀ n ∈ names, (members.map Prod.fst).count (some n) ≤ 1 := by
  rw [fields_object, ← named_isSome_iff]
  cases hms : named? members with
  | none => simp
  | some ms =>
    have hcount (n : String) : (members.map Prod.fst).count (some n) =
        (ms.filter fun m => m.1 == n).length := by
      rw [named_keys hms, List.count, List.countP_map, List.countP_eq_length_filter]
      rfl
    simp only [Option.bind_some, hcount, Option.isSome_some, true_and]
    split
    · rename_i hall
      simpa using hall
    · rename_i hall
      simpa using hall

/-- Of a name that is given at most once, any member is the one that is looked up. -/
theorem lookup_of_mem {ms : List (String × Json)} (hm : (name, v) ∈ ms)
    (honce : (ms.filter fun m => m.1 == name).length ≤ 1) : ms.lookup name = some v := by
  obtain ⟨front, back, rfl⟩ := List.append_of_mem hm
  have hfront : front.filter (fun m => m.1 == name) = [] := by
    rw [List.filter_append, List.filter_cons_of_pos (by simp), List.length_append,
      List.length_cons] at honce
    exact List.eq_nil_of_length_eq_zero (by omega)
  refine List.lookup_eq_some_iff.mpr ⟨front, back, rfl, fun m hfound => ?_⟩
  exact bne_iff_ne.mpr fun heq =>
    List.filter_eq_nil_iff.mp hfront m hfound (beq_iff_eq.mpr heq.symm)

/-- A field of an accepted record is what its member holds. -/
theorem field_of_member {f : String → Option Json} (h : fields? names (.object members) = some f)
    (hn : name ∈ names) (hm : (some name, v) ∈ members) : f name = some v := by
  rw [fields_object] at h
  obtain ⟨ms, hms, h⟩ := Option.bind_eq_some_iff.mp h
  split at h
  · rename_i hall
    cases h
    have honce := List.all_eq_true.mp hall name hn
    exact lookup_of_mem ((named_mem hms).mpr hm) (of_decide_eq_true honce)
  · cases h

/-- A field of an accepted record is not there if no member is. -/
theorem field_of_none {f : String → Option Json} (h : fields? names (.object members) = some f)
    (hm : ∀ m ∈ members, m.1 ≠ some name) : f name = none := by
  rw [fields_object] at h
  obtain ⟨ms, hms, h⟩ := Option.bind_eq_some_iff.mp h
  split at h
  · cases h
    exact List.lookup_eq_none_iff.mpr fun m hfound => bne_iff_ne.mpr fun heq =>
      hm (some m.1, m.2) ((named_mem hms).mp hfound) (congrArg some heq.symm)
  · cases h

/-- A field of an accepted record is what a member of its name holds. -/
theorem field_eq_some_iff {f : String → Option Json} (h : fields? names (.object members) = some f)
    (hn : name ∈ names) : f name = some v ↔ (some name, v) ∈ members := by
  constructor
  · intro hf
    by_cases hm : ∃ w, (some name, w) ∈ members
    · obtain ⟨w, hw⟩ := hm
      obtain rfl : w = v := Option.some.inj ((field_of_member h hn hw).symm.trans hf)
      exact hw
    · have hnone := field_of_none h fun m hm' heq => hm ⟨m.2, heq ▸ hm'⟩
      rw [hnone] at hf
      cases hf
  · exact field_of_member h hn

/-- A name that is new to a list of members counts once with its member and changes no other one. -/
theorem named_insert {fs bs : List (String × Json)} (h : ∀ m ∈ fs ++ bs, m.1 ≠ name) :
    (if names.all fun n => ((fs ++ (name, v) :: bs).filter fun m => m.1 == n).length ≤ 1 then
        some fun n => (fs ++ (name, v) :: bs).lookup n
      else none) =
    (if names.all fun n => ((fs ++ bs).filter fun m => m.1 == n).length ≤ 1 then
        some fun n => (fs ++ bs).lookup n
      else none).map fun f other => if other = name then some v else f other := by
  have hcount : ∀ n, ((fs ++ (name, v) :: bs).filter fun m => m.1 == n).length ≤ 1 ↔
      ((fs ++ bs).filter fun m => m.1 == n).length ≤ 1 := by
    intro n
    obtain rfl | hne := Decidable.em (n = name)
    · have hnone : (fs ++ bs).filter (fun m => m.1 == n) = [] :=
        List.filter_eq_nil_iff.mpr fun m hm => by simpa using h m hm
      rw [List.filter_append, List.append_eq_nil_iff] at hnone
      simp [List.filter_append, hnone]
    · simp [List.filter_append, Ne.symm hne]
  have hlookup : ∀ n, (fs ++ (name, v) :: bs).lookup n =
      if n = name then some v else (fs ++ bs).lookup n := by
    intro n
    rw [List.lookup_append, List.lookup_append, List.lookup_cons]
    obtain rfl | hne := Decidable.em (n = name)
    · have hnone : fs.lookup n = none := List.lookup_eq_none_iff.mpr fun m hm =>
        bne_iff_ne.mpr (h m (List.mem_append_left _ hm)).symm
      simp [hnone]
    · rw [beq_eq_false_iff_ne.mpr hne, if_neg hne]
  simp only [hcount, hlookup]
  split <;> rfl

/-- One more member gives one more field, if no other member has its name. -/
theorem fields_insert (h : ∀ m ∈ front ++ back, m.1 ≠ some name) :
    fields? names (.object (front ++ (some name, v) :: back)) =
      (fields? names (.object (front ++ back))).map fun f other =>
        if other = name then some v else f other := by
  rw [fields_object, fields_object, named_append, named_append, named_cons]
  cases hfs : named? front with
  | none => rfl
  | some fs =>
    cases hbs : named? back with
    | none => rfl
    | some bs =>
      refine named_insert fun m hm heq => h (some m.1, m.2) ?_ (congrArg some heq)
      rcases List.mem_append.mp hm with hm | hm
      · exact List.mem_append_left _ ((named_mem hfs).mp hm)
      · exact List.mem_append_right _ ((named_mem hbs).mp hm)

end SignedConsole.Json
