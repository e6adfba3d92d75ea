import Mathlib.Data.List.DropRight
import SignedConsole.Proofs.BatchUpdates

namespace SignedConsole

namespace Text

/-- The text without the white space at its end. -/
def trimmedEnd (s : String) : String := String.ofList (trimEnd s.toList)

/-- Whether a text does not end in white space. -/
def EndsSolid (s : String) : Prop := ∀ c ∈ s.toList.getLast?, isBlank c = false

theorem trimmedEnd_eq_self_iff {s : String} : trimmedEnd s = s ↔ EndsSolid s := by
  have hchars : trimmedEnd s = s ↔ s.toList.rdropWhile isBlank = s.toList := by
    rw [← String.toList_inj, trimmedEnd, String.toList_ofList]
    rfl
  rw [hchars, List.rdropWhile_eq_self_iff, EndsSolid]
  constructor
  · intro h c hc
    obtain ⟨hne, rfl⟩ := List.mem_getLast?_eq_getLast hc
    exact Bool.eq_false_iff.mpr (h hne)
  · intro h hne
    exact Bool.eq_false_iff.mp (h _ (List.getLast?_eq_some_getLast hne))

/-- White space at the end is cut off behind a character that is none. -/
theorem trimEnd_cons {c : Char} (hc : isBlank c = false) (cs : List Char) :
    trimEnd (c :: cs) = c :: trimEnd cs := by
  unfold trimEnd
  rw [List.reverse_cons, List.dropWhile_append]
  split
  · rename_i hblank
    simp [hc, List.isEmpty_iff.mp hblank]
  · rw [List.reverse_append]
    rfl

theorem trim_dash (s : String) : trim ("-" ++ s) = "-" ++ trimmedEnd s := by
  have hdash : isBlank '-' = false := by decide
  have hchars : ("-" ++ s).toList = '-' :: s.toList := by
    rw [String.toList_append]
    rfl
  have hstart : trimStart ('-' :: s.toList) = '-' :: s.toList :=
    List.dropWhile_cons_of_neg (by simp [hdash])
  rw [← String.toList_inj, trim, hchars, hstart, trimEnd_cons hdash]
  simp [trimmedEnd]

theorem trimmed_opens {s : String} {c : Char} {cs : List Char} (h : (trim s).toList = c :: cs) :
    isBlank c = false := by
  rw [trim, String.toList_ofList] at h
  obtain ⟨behind, hbehind⟩ := List.rdropWhile_prefix isBlank (l := trimStart s.toList)
  have hstart : (trimStart s.toList).head? = some c := by
    rw [← hbehind, show (trimStart s.toList).rdropWhile isBlank = c :: cs from h]
    rfl
  have hhead := List.head?_dropWhile_not isBlank s.toList
  rw [show s.toList.dropWhile isBlank = trimStart s.toList from rfl, hstart] at hhead
  exact hhead

theorem trimmed_ends (s : String) : EndsSolid (trim s) := by
  rw [← trimmedEnd_eq_self_iff, trimmedEnd, trim, String.toList_ofList]
  exact congrArg String.ofList (List.rdropWhile_idempotent isBlank (trimStart s.toList))

end Text

namespace Workers

open Text

/-- A key that is set starts with a character that is no white space. -/
theorem set_key_opens {line key value : String}
    (h : update? (trim line) = some (.set key value)) :
    ∃ c cs, key.toList = c :: cs ∧ isBlank c = false := by
  obtain ⟨hline, hne, -, -⟩ := update_set.mp h
  obtain ⟨c, cs, hkey⟩ := List.exists_cons_of_ne_nil (mt String.toList_eq_nil_iff.mp hne)
  have hopens : (trim line).toList = c :: (cs ++ '=' :: value.toList) := by
    rw [hline, String.toList_append, String.toList_append, hkey]
    simp
  exact ⟨c, cs, hkey, trimmed_opens hopens⟩

/-- A dash and a key that is set ask for the removal of the key up to the white space at its end. -/
theorem removal_of_set {line key value : String}
    (h : update? (trim line) = some (.set key value)) :
    update? (trim ("-" ++ key)) = some (.remove (trimmedEnd key)) := by
  obtain ⟨-, -, hequals, -⟩ := update_set.mp h
  obtain ⟨c, cs, hkey, hc⟩ := set_key_opens h
  refine update_remove.mpr ⟨trim_dash key, ?_, ?_⟩
  · rw [trimmedEnd, hkey, trimEnd_cons hc, Ne, ← String.toList_eq_nil_iff, String.toList_ofList]
    exact List.cons_ne_nil _ _
  · rw [trimmedEnd, String.toList_ofList]
    exact fun hm => hequals ((List.rdropWhile_prefix isBlank _).subset hm)

/-- A key that some line removes does not end in white space. -/
theorem removed_key_ends {line key : String} (h : update? (trim line) = some (.remove key)) :
    EndsSolid key := by
  obtain ⟨hline, -, -⟩ := update_remove.mp h
  have hends := trimmed_ends line
  rw [hline] at hends
  intro c hc
  refine hends c ?_
  change ("-" ++ key).toList.getLast? = some c
  rw [String.toList_append, List.getLast?_append, hc]
  rfl

/-- The line that asks for the removal of what an update sets. -/
def removalLine? : VariableUpdate → Option String
  | .set key _ => some ("-" ++ key)
  | .remove _ => none

/-- The removal of what an update sets, under a key that is made from its key. -/
def removal? (of : String → String) : VariableUpdate → Option VariableUpdate
  | .set key _ => some (.remove (of key))
  | .remove _ => none

theorem mem_entered {typed : List String} {u : VariableUpdate} (h : u ∈ entered typed) :
    ∃ line, update? (trim line) = some u := by
  obtain ⟨entry, hentry, hu⟩ := List.mem_filterMap.mp h
  obtain ⟨line, -, rfl⟩ := List.mem_map.mp ((List.takeWhile_prefix _).subset hentry)
  exact ⟨line, hu⟩

/-- The lines that remove what has been set are all taken, in order. -/
theorem entered_removals {us : List VariableUpdate}
    (h : ∀ u ∈ us, ∃ line, update? (trim line) = some u) :
    entered (us.filterMap removalLine?) = us.filterMap (removal? trimmedEnd) := by
  induction us with
  | nil => rfl
  | cons u us ih =>
    have hrest := ih fun v hv => h v (List.mem_cons_of_mem u hv)
    obtain ⟨line, hline⟩ := h u List.mem_cons_self
    cases u with
    | remove key => exact hrest
    | set key value =>
      have hremoval := removal_of_set hline
      have hfull : trim ("-" ++ key) ≠ "" := by
        intro hempty
        rw [hempty] at hremoval
        cases hremoval
      change entered (("-" ++ key) :: us.filterMap removalLine?) = _
      rw [entered, entries_entry _ hfull, List.filterMap_cons, hremoval]
      exact congrArg (VariableUpdate.remove (trimmedEnd key) :: ·) hrest

/-- What is set is removed again by a dash and its key, if the key does not end in white space; if it
does, no line removes it, and that one removes the key without the white space. When the lines for
all that a loop has set are typed into the loop, it reads those removals, in order. -/
theorem set_keys_are_removed (b : Batch) :
    (∀ line key value, update? (trim line) = some (.set key value) →
      update? (trim ("-" ++ key)) = some (.remove (trimmedEnd key)) ∧
      (update? (trim ("-" ++ key)) = some (.remove key) ↔ EndsSolid key) ∧
      ((∃ other, update? (trim other) = some (.remove key)) ↔ EndsSolid key)) ∧
    ∀ d d' : Desk σ,
      let us := (d.perform (readUpdates b.heading)).1
      let removed := (d'.perform (readUpdates b.heading)).1
      d'.typed = us.filterMap removalLine? →
        removed = us.filterMap (removal? trimmedEnd) ∧
        ((∀ key value, .set key value ∈ us → EndsSolid key) →
          removed = us.filterMap (removal? id)) := by
  constructor
  · intro line key value h
    have hremoval := removal_of_set h
    have hsolid (hends : EndsSolid key) : update? (trim ("-" ++ key)) = some (.remove key) := by
      rw [hremoval, trimmedEnd_eq_self_iff.mpr hends]
    refine ⟨hremoval, ⟨removed_key_ends, hsolid⟩, ?_, fun hends => ⟨_, hsolid hends⟩⟩
    rintro ⟨other, hother⟩
    exact removed_key_ends hother
  · intro d d' us removed htyped
    have hread (x : Desk σ) : (x.perform (readUpdates b.heading)).1 = entered x.typed :=
      congrArg Prod.fst (b.perform_readUpdates x)
    have hlines : ∀ u ∈ us, ∃ line, update? (trim line) = some u := by
      intro u hu
      rw [show us = entered d.typed from hread d] at hu
      exact mem_entered hu
    have hremoved : removed = us.filterMap (removal? trimmedEnd) := by
      rw [show removed = entered d'.typed from hread d', htyped, entered_removals hlines]
    refine ⟨hremoved, fun hsolid => hremoved.trans (List.filterMap_congr fun u hu => ?_)⟩
    cases u with
    | remove key => rfl
    | set key value =>
      rw [removal?, removal?, trimmedEnd_eq_self_iff.mpr (hsolid key value hu), id]

/-- Of two variables that are set, one is removed and the other, with a space in its key, is not. -/
theorem one_of_two_keys_is_removed :
    let d : Desk Memory := ⟨.of "http://api.test" .hmac .failOpen,
      ⟨.empty, .hmac, .of "alice" "jwt" none⟩, ⟨true, [], .hangUp, []⟩, 0,
      ["A =1", " B=2", "-C", ""], []⟩
    let d' : Desk Memory := { d with typed := ["-A ", "-B"] }
    (d.perform (readUpdates Batch.environment.heading)).1 =
      [.set "A " "1", .set "B" "2", .remove "C"] ∧
    update? (trim "-B") = some (.remove "B") ∧
    (d'.perform (readUpdates Batch.environment.heading)).1 = [.remove "A", .remove "B"] := by
  intro d d'
  have hset : (d.perform (readUpdates Batch.environment.heading)).1 =
      [.set "A " "1", .set "B" "2", .remove "C"] := by decide +kernel
  obtain ⟨hkeys, hloop⟩ := @set_keys_are_removed Memory .environment
  have hb := (hkeys " B=2" "B" "2" (by decide +kernel)).1
  have hremoved := (hloop d d' (by rw [hset]; rfl)).1
  rw [hset] at hremoved
  refine ⟨hset, hb.trans (by decide +kernel), hremoved.trans (by decide +kernel)⟩

/-- A key with a space at its end is set, and a dash in front of it removes another key. -/
theorem key_with_space_is_kept :
    update? (trim "A =1") = some (.set "A " "1") ∧
    update? (trim ("-" ++ "A ")) = some (.remove "A") ∧
    ¬ ∀ line key value, update? (trim line) = some (.set key value) →
      update? (trim ("-" ++ key)) = some (.remove key) := by
  have hset : update? (trim "A =1") = some (.set "A " "1") := by decide +kernel
  have hremoved : update? (trim ("-" ++ "A ")) = some (.remove "A") := by decide +kernel
  refine ⟨hset, hremoved, fun hclaimed => ?_⟩
  have hkept := hclaimed "A =1" "A " "1" hset
  rw [hremoved] at hkept
  exact absurd hkept (by decide)

end Workers
end SignedConsole
