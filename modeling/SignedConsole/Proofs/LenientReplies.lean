import Mathlib.Logic.Relation
import SignedConsole.Proofs.EmptyLists
import SignedConsole.Proofs.JsonLines

namespace SignedConsole

open Json (required defaulted fields?)

/-- The kinds of records that replies are made of. -/
inductive RecordKind where
  | registration
  | grant
  | notice
  | databaseList
  | database
  | created
  | storeList
  | store
  | worker
  | workerDetail
  | version
  | domainList
  | domain

/-- What stands at a place of a reply: a record, a list of records, or a value without any. -/
inductive Content where
  | plain
  | record (kind : RecordKind)
  | records (kind : RecordKind)

/-- A field of a record. Its fallback is what it holds where it is left out, if it may be. -/
structure Field where
  name : String
  content : Content
  fallback : Option Json

namespace Field

def needed (name : String) : Field := ⟨name, .plain, none⟩

def text (name : String) : Field := ⟨name, .plain, some (.ofString "")⟩

def count (name : String) : Field := ⟨name, .plain, some (.ofNat 0)⟩

/-- A field that may be null. -/
def optional (name : String) : Field := ⟨name, .plain, some .null⟩

def list (name : String) (kind : RecordKind) : Field := ⟨name, .records kind, some (.array [])⟩

end Field

namespace RecordKind

def fields : RecordKind → List Field
  | registration => [.needed "user_id", .text "email", .needed "token", .text "secret_key"]
  | grant => [.needed "user_id", .needed "token"]
  | notice => [.text "message"]
  | databaseList => [.list "rdbs" database, .optional "database_size"]
  | database => [.needed "id", .text "name", .text "url", .count "size"]
  | created => [.text "id", .optional "message", .optional "error"]
  | storeList => [.list "kvs" store]
  | store => [.needed "id", .text "kv_type", .text "url"]
  | worker =>
    [.needed "worker_id", .text "worker_name", .text "status", .optional "active_version_id"]
  | workerDetail => [⟨"worker", .record worker, none⟩, .list "versions" version]
  | version =>
    [.needed "id", .text "image", .count "port", .text "status", .text "msg", .text "created_at"]
  | domainList => [.list "domains" domain]
  | domain =>
    [.needed "id", .text "domain", .text "target", .text "status", .text "txt_name",
      .text "txt_value"]

def names (kind : RecordKind) : List String := kind.fields.map Field.name

def field? (kind : RecordKind) (name : String) : Option Field :=
  kind.fields.find? fun f => f.name == name

/-- No name is that of two fields. -/
theorem field_of_mem {kind : RecordKind} : ∀ f ∈ kind.fields, kind.field? f.name = some f := by
  cases kind <;> simp [fields, field?, Field.needed, Field.text, Field.count, Field.optional,
    Field.list]

theorem mem_names {kind : RecordKind} {f : Field} (h : f ∈ kind.fields) : f.name ∈ kind.names :=
  List.mem_map_of_mem h

theorem eq_of_name {kind : RecordKind} {f f' : Field} (h : f ∈ kind.fields) (h' : f' ∈ kind.fields)
    (hname : f.name = f'.name) : f = f' := by
  have hfound := field_of_mem f h
  rw [hname, field_of_mem f' h'] at hfound
  exact (Option.some.inj hfound).symm

end RecordKind

/-- What stands in a member. Only the fields of records hold records. -/
def Content.member : Content → Option String → Content
  | .record kind, key => ((key.bind kind.field?).map Field.content).getD .plain
  | _, _ => .plain

theorem Content.member_field {kind : RecordKind} {f : Field} (h : f ∈ kind.fields) :
    (Content.record kind).member (some f.name) = f.content := by
  simp [Content.member, RecordKind.field_of_mem f h]

variable {kind : RecordKind} {c : Content} {v w : Json}

/-- One change to a document with some content. The members of an object may be put into another
order, at any place. Into an object that gives a record may come a member with any value, under any
text that is not the name of a field, and a field that the object lacks, with its default. What is
inside an array in the place of a record is left alone: that is the other way to give a record. -/
inductive Edit : Content → Json → Json → Prop where
  | permute {c : Content} {members members' : List (Option String × Json)}
      (h : members.Perm members') : Edit c (.object members) (.object members')
  | insert {kind : RecordKind} {front back : List (Option String × Json)} {name : String} {v : Json}
      (h : ∀ f ∈ kind.fields, f.name ≠ name) :
      Edit (.record kind) (.object (front ++ back)) (.object (front ++ (some name, v) :: back))
  | fill {kind : RecordKind} {front back : List (Option String × Json)} {f : Field} {v : Json}
      (hf : f ∈ kind.fields) (hv : f.fallback = some v)
      (h : ∀ m ∈ front ++ back, m.1 ≠ some f.name) :
      Edit (.record kind) (.object (front ++ back)) (.object (front ++ (some f.name, v) :: back))
  | member {c : Content} {front back : List (Option String × Json)} {key : Option String}
      {v w : Json} (h : Edit (c.member key) v w) :
      Edit c (.object (front ++ (key, v) :: back)) (.object (front ++ (key, w) :: back))
  | item {front back : List Json} {v w : Json} (h : Edit .plain v w) :
      Edit .plain (.array (front ++ v :: back)) (.array (front ++ w :: back))
  | listed {kind : RecordKind} {front back : List Json} {v w : Json} (h : Edit (.record kind) v w) :
      Edit (.records kind) (.array (front ++ v :: back)) (.array (front ++ w :: back))

/-- A reader that no change matters to. -/
def Lenient (c : Content) (read : Json → Option β) : Prop := ∀ v w, Edit c v w → read v = read w

/-- Changes leave an object an object and an array an array. -/
theorem lenient_of_flat {read : Json → Option β} (hitems : ∀ items, read (.array items) = none)
    (hmembers : ∀ members, read (.object members) = none) : Lenient c read := by
  intro v w h
  cases h <;> simp only [hitems, hmembers]

theorem Lenient.option {read : Json → Option β} (h : Lenient c read) :
    Lenient c (Json.option? read) := by
  intro v w he
  have hread := h v w he
  cases he <;> exact congrArg (Option.map some) hread

theorem Lenient.list {read : Json → Option β} (h : Lenient (.record kind) read) :
    Lenient (.records kind) (Json.list? read) := by
  intro v w he
  cases he with
  | permute => rfl
  | member => rfl
  | listed he =>
    simp only [Json.list?, List.mapM_append, List.mapM_cons, h _ _ he]

theorem Lenient.of_edits {read : Json → Option β} (h : Lenient c read)
    (he : Relation.EqvGen (Edit c) v w) : read v = read w := by
  induction he with
  | rel v w he => exact h v w he
  | refl => rfl
  | symm _ _ _ ih => exact ih.symm
  | trans _ _ _ _ _ ih ih' => exact ih.trans ih'

theorem text_lenient : Lenient c Json.text? := lenient_of_flat (fun _ => rfl) fun _ => rfl

theorem nat_lenient (limit : Nat) : Lenient c (Json.natUpTo? limit) :=
  lenient_of_flat (fun _ => rfl) fun _ => rfl

theorem int_lenient : Lenient c Json.int64? := lenient_of_flat (fun _ => rfl) fun _ => rfl

/-- What is found in a field before and after an edit of its record. -/
inductive Field.Same (f : Field) : Option Json → Option Json → Prop where
  | refl (found : Option Json) : Same f found found
  | filled {v : Json} (h : f.fallback = some v) : Same f none (some v)
  | edited {v w : Json} (h : Edit f.content v w) : Same f (some v) (some w)

/-- The fields of two documents of which both are no records, or that say the same. -/
def SameFields (kind : RecordKind) (v w : Json) : Prop :=
  (v.fields? kind.names = none ∧ w.fields? kind.names = none) ∨
    ∃ g g', v.fields? kind.names = some g ∧ w.fields? kind.names = some g' ∧
      ∀ f ∈ kind.fields, f.Same (g f.name) (g' f.name)

variable {front back members members' : List (Option String × Json)}

theorem sameFields_of_objects
    (hnames : (fields? kind.names (.object members)).isSome = true ↔
      (fields? kind.names (.object members')).isSome = true)
    (hsame : ∀ g g', fields? kind.names (.object members) = some g →
      fields? kind.names (.object members') = some g' →
      ∀ f ∈ kind.fields, f.Same (g f.name) (g' f.name)) :
    SameFields kind (.object members) (.object members') := by
  cases hg : fields? kind.names (.object members) with
  | none =>
    cases hg' : fields? kind.names (.object members') with
    | none => exact Or.inl ⟨hg, hg'⟩
    | some g' => simp [hg, hg'] at hnames
  | some g =>
    cases hg' : fields? kind.names (.object members') with
    | none => simp [hg, hg'] at hnames
    | some g' => exact Or.inr ⟨g, g', hg, hg', hsame g g' hg hg'⟩

/-- A field that both objects give in the same members is the same. -/
theorem same_of_members {g g' : String → Option Json} {f : Field}
    (hg : fields? kind.names (.object members) = some g)
    (hg' : fields? kind.names (.object members') = some g') (hf : f ∈ kind.fields)
    (h : ∀ v, (some f.name, v) ∈ members ↔ (some f.name, v) ∈ members') :
    f.Same (g f.name) (g' f.name) := by
  have hn := RecordKind.mem_names hf
  have heq : g f.name = g' f.name := Option.ext fun v =>
    (Json.field_eq_some_iff hg hn).trans ((h v).trans (Json.field_eq_some_iff hg' hn).symm)
  rw [heq]
  exact .refl _

theorem sameFields_permute (h : members.Perm members') :
    SameFields kind (.object members) (.object members') := by
  refine sameFields_of_objects ?_ fun g g' hg hg' f hf =>
    same_of_members hg hg' hf fun v => h.mem_iff
  have hkeys := h.map Prod.fst
  simp only [Json.fields_isSome_iff, hkeys.mem_iff, hkeys.count_eq]

theorem sameFields_insert {name : String} (h : ∀ f ∈ kind.fields, f.name ≠ name) :
    SameFields kind (.object (front ++ back)) (.object (front ++ (some name, v) :: back)) := by
  have hother : ∀ n ∈ kind.names, n ≠ name := by
    intro n hn
    obtain ⟨f, hf, rfl⟩ := List.mem_map.mp hn
    exact h f hf
  refine sameFields_of_objects ?_ fun g g' hg hg' f hf =>
    same_of_members hg hg' hf fun v => by simp [h f hf]
  have hcount : ∀ n ∈ kind.names, ((front ++ (some name, v) :: back).map Prod.fst).count (some n) =
      ((front ++ back).map Prod.fst).count (some n) := by
    intro n hn
    simp [(hother n hn).symm]
  simp only [Json.fields_isSome_iff]
  refine and_congr (by simp) (forall₂_congr fun n hn => ?_)
  rw [hcount n hn]

theorem sameFields_fill {f : Field} (hf : f ∈ kind.fields) (hv : f.fallback = some v)
    (h : ∀ m ∈ front ++ back, m.1 ≠ some f.name) :
    SameFields kind (.object (front ++ back)) (.object (front ++ (some f.name, v) :: back)) := by
  have hinsert : fields? kind.names (.object (front ++ (some f.name, v) :: back)) =
      (fields? kind.names (.object (front ++ back))).map fun g other =>
        if other = f.name then some v else g other := Json.fields_insert h
  refine sameFields_of_objects (by rw [hinsert, Option.isSome_map]) fun g g' hg hg' f' hf' => ?_
  rw [hinsert, hg] at hg'
  obtain rfl := Option.some.inj hg'
  dsimp only
  by_cases hname : f'.name = f.name
  · obtain rfl := RecordKind.eq_of_name hf' hf hname
    rw [if_pos rfl, Json.field_of_none hg h]
    exact .filled hv
  · rw [if_neg hname]
    exact .refl _

theorem sameFields_member {key : Option String} (h : Edit ((Content.record kind).member key) v w) :
    SameFields kind (.object (front ++ (key, v) :: back))
      (.object (front ++ (key, w) :: back)) := by
  refine sameFields_of_objects (by simp [Json.fields_isSome_iff]) fun g g' hg hg' f hf => ?_
  by_cases hkey : key = some f.name
  · subst hkey
    have hn := RecordKind.mem_names hf
    rw [Content.member_field hf] at h
    rw [Json.field_of_member hg hn (v := v) (by simp),
      Json.field_of_member hg' hn (v := w) (by simp)]
    exact .edited h
  · exact same_of_members hg hg' hf fun v => by simp [Ne.symm hkey]

theorem sameFields_edit (h : Edit (.record kind) v w) : SameFields kind v w := by
  cases h with
  | permute h => exact sameFields_permute h
  | insert h => exact sameFields_insert h
  | fill hf hv h => exact sameFields_fill hf hv h
  | member h => exact sameFields_member h

theorem Field.Same.required {f : Field} {x y : Option Json} {read : Json → Option β}
    (h : f.Same x y) (hf : f.fallback = none) (hread : Lenient f.content read) :
    required read x = required read y := by
  cases h with
  | refl => rfl
  | filled hv =>
    rw [hf] at hv
    cases hv
  | edited he => exact hread _ _ he

/-- A default that is given counts as one that is left out. -/
theorem Field.Same.defaulted {f : Field} {x y : Option Json} {read : Json → Option β} {b : β}
    (h : f.Same x y) (hf : ∀ v, f.fallback = some v → read v = some b)
    (hread : Lenient f.content read) : defaulted read b x = defaulted read b y := by
  cases h with
  | refl => rfl
  | filled hv => exact (hf _ hv).symm
  | edited he => exact hread _ _ he

/-- What is taken out of the fields of a record, if no edit of the record changes it. -/
def Respects (fields : List Field) (take : (String → Option Json) → Option β) : Prop :=
  ∀ g g', (∀ f ∈ fields, f.Same (g f.name) (g' f.name)) → take g = take g'

theorem lenient_record {read : Json → Option β} {take : (String → Option Json) → Option β}
    (hread : ∀ j, read j = (j.fields? kind.names).bind take) (htake : Respects kind.fields take) :
    Lenient (.record kind) read := by
  intro v w h
  rw [hread, hread]
  rcases sameFields_edit h with ⟨hv, hw⟩ | ⟨g, g', hv, hw, hsame⟩
  · rw [hv, hw]
  · rw [hv, hw]
    exact htake g g' hsame

namespace Respects

variable {fields : List Field} {name : String}

theorem pure (b : β) : Respects fields fun _ => some b := fun _ _ _ => rfl

theorem bind {take : (String → Option Json) → Option β}
    {more : β → (String → Option Json) → Option γ} (h : Respects fields take)
    (hmore : ∀ b, Respects fields (more b)) :
    Respects fields fun g => take g >>= fun b => more b g := by
  intro g g' hsame
  change (take g).bind (fun b => more b g) = (take g').bind fun b => more b g'
  rw [h g g' hsame]
  exact congrArg (Option.bind (take g')) (funext fun b => hmore b g g' hsame)

theorem required {read : Json → Option β} (hf : ⟨name, c, none⟩ ∈ fields) (hread : Lenient c read) :
    Respects fields fun g => required read (g name) :=
  fun _ _ hsame => (hsame _ hf).required rfl hread

theorem defaulted {read : Json → Option β} {b : β} {v : Json} (hf : ⟨name, c, some v⟩ ∈ fields)
    (hv : read v = some b) (hread : Lenient c read) :
    Respects fields fun g => defaulted read b (g name) :=
  fun _ _ hsame => (hsame _ hf).defaulted (fun _ h => Option.some.inj h ▸ hv) hread

theorem needed {read : Json → Option β} (hf : .needed name ∈ fields) (hread : Lenient .plain read) :
    Respects fields fun g => Json.required read (g name) := required hf hread

theorem text (hf : .text name ∈ fields) : Respects fields fun g => textField (g name) :=
  defaulted hf rfl text_lenient

theorem count (limit : Nat) (hf : .count name ∈ fields) :
    Respects fields fun g => Json.defaulted (Json.natUpTo? limit) 0 (g name) :=
  defaulted hf (Json.natUpTo_ofNat (Nat.zero_le limit)) (nat_lenient limit)

theorem optional {read : Json → Option β} (hf : .optional name ∈ fields)
    (hread : Lenient .plain read) :
    Respects fields fun g => Json.defaulted (Json.option? read) none (g name) :=
  defaulted hf rfl hread.option

theorem note (hf : .optional name ∈ fields) : Respects fields fun g => noteField (g name) :=
  optional hf text_lenient

theorem list {read : Json → Option β} (hf : .list name kind ∈ fields)
    (hread : Lenient (.record kind) read) :
    Respects fields fun g => Json.defaulted (Json.list? read) [] (g name) :=
  defaulted hf rfl hread.list

end Respects

theorem registration_lenient : Lenient (.record .registration) Registration.read := by
  refine lenient_record (fun _ => rfl) ?_
  refine .bind (.needed ?_ text_lenient) fun _ => .bind (.text ?_) fun _ =>
    .bind (.needed ?_ text_lenient) fun _ => .bind (.text ?_) fun _ => .pure _
  all_goals simp [RecordKind.fields]

theorem grant_lenient : Lenient (.record .grant) Grant.read := by
  refine lenient_record (fun _ => rfl) ?_
  refine .bind (.needed ?_ text_lenient) fun _ => .bind (.needed ?_ text_lenient) fun _ => .pure _
  all_goals simp [RecordKind.fields]

theorem notice_lenient : Lenient (.record .notice) Notice.read := by
  refine lenient_record (fun _ => rfl) ?_
  refine .bind (.text ?_) fun _ => .pure _
  simp [RecordKind.fields]

theorem database_lenient : Lenient (.record .database) Database.read := by
  refine lenient_record (fun _ => rfl) ?_
  refine .bind (.needed ?_ text_lenient) fun _ => .bind (.text ?_) fun _ =>
    .bind (.text ?_) fun _ => .bind (.count _ ?_) fun _ => .pure _
  all_goals simp [RecordKind.fields]

theorem databaseList_lenient : Lenient (.record .databaseList) DatabaseList.read := by
  refine lenient_record (fun _ => rfl) ?_
  refine .bind (.list ?_ database_lenient) fun _ => .bind (.optional ?_ (nat_lenient _)) fun _ =>
    .pure _
  all_goals simp [RecordKind.fields]

theorem created_lenient : Lenient (.record .created) Created.read := by
  refine lenient_record (fun _ => rfl) ?_
  refine .bind (.text ?_) fun _ => .bind (.note ?_) fun _ => .bind (.note ?_) fun _ => .pure _
  all_goals simp [RecordKind.fields]

theorem store_lenient : Lenient (.record .store) KeyValueStore.read := by
  refine lenient_record (fun _ => rfl) ?_
  refine .bind (.needed ?_ text_lenient) fun _ => .bind (.text ?_) fun _ =>
    .bind (.text ?_) fun _ => .pure _
  all_goals simp [RecordKind.fields]

theorem storeList_lenient : Lenient (.record .storeList) KeyValueStore.readList := by
  refine lenient_record (fun _ => rfl) (.list ?_ store_lenient)
  simp [RecordKind.fields]

theorem worker_lenient : Lenient (.record .worker) Worker.read := by
  refine lenient_record (fun _ => rfl) ?_
  refine .bind (.needed ?_ text_lenient) fun _ => .bind (.text ?_) fun _ =>
    .bind (.text ?_) fun _ => .bind (.optional ?_ int_lenient) fun _ => .pure _
  all_goals simp [RecordKind.fields]

theorem version_lenient : Lenient (.record .version) WorkerVersion.read := by
  refine lenient_record (fun _ => rfl) ?_
  refine .bind (.needed ?_ int_lenient) fun _ => .bind (.text ?_) fun _ =>
    .bind (.count _ ?_) fun _ => .bind (.text ?_) fun _ => .bind (.text ?_) fun _ =>
    .bind (.text ?_) fun _ => .pure _
  all_goals simp [RecordKind.fields]

theorem workerDetail_lenient : Lenient (.record .workerDetail) WorkerDetail.read := by
  refine lenient_record (fun _ => rfl) ?_
  refine .bind (.required ?_ worker_lenient) fun _ => .bind (.list ?_ version_lenient) fun _ =>
    .pure _
  all_goals simp [RecordKind.fields]

theorem domain_lenient : Lenient (.record .domain) Domain.read := by
  refine lenient_record (fun _ => rfl) ?_
  refine .bind (.needed ?_ text_lenient) fun _ => .bind (.text ?_) fun _ =>
    .bind (.text ?_) fun _ => .bind (.text ?_) fun _ => .bind (.text ?_) fun _ =>
    .bind (.text ?_) fun _ => .pure _
  all_goals simp [RecordKind.fields]

theorem domainList_lenient : Lenient (.record .domainList) Domain.readList := by
  refine lenient_record (fun _ => rfl) (.list ?_ domain_lenient)
  simp [RecordKind.fields]

namespace Call

/-- What the reply to a call holds, for the calls that are told of records. -/
def content? : Call α → Option Content
  | sendCode _ | resetPassword .. => some (.record .notice)
  | register .. => some (.record .registration)
  | login .. => some (.record .grant)
  | listDatabases => some (.record .databaseList)
  | getDatabase _ => some (.record .database)
  | createDatabase _ | createStore .. => some (.record .created)
  | listStores => some (.record .storeList)
  | listWorkers => some (.records .worker)
  | getWorker .. => some (.record .workerDetail)
  | createWorker _ => some (.record .worker)
  | listDomains => some (.record .domainList)
  | getDomain _ | createDomain .. => some (.record .domain)
  | workerVariables _ | setVariable .. | workerSecrets _ | setSecret .. | deleteDatabase _
  | deleteStore _ | deleteWorker _ | deleteDomain _ => none

theorem read_lenient {call : Call α} (h : call.content? = some c) : Lenient c call.read := by
  cases call <;> cases h
  case sendCode | resetPassword => exact notice_lenient
  case register => exact registration_lenient
  case login => exact grant_lenient
  case listDatabases => exact databaseList_lenient
  case getDatabase => exact database_lenient
  case createDatabase | createStore => exact created_lenient
  case listStores => exact storeList_lenient
  case listWorkers =>
    intro v w he
    exact congrArg (Option.map _) (worker_lenient.list.option v w he)
  case getWorker => exact workerDetail_lenient
  case createWorker => exact worker_lenient
  case listDomains => exact domainList_lenient
  case getDomain | createDomain => exact domain_lenient

/-- Two successful replies that come from one another by any number of edits, done or undone, have
the same result: both are read as one value, or both are invalid. -/
theorem replies_are_read_leniently {call : Call α} {reply reply' : Reply}
    (hc : call.content? = some c) (h : Relation.EqvGen (Edit c) v w) (hv : reply.Brings v)
    (hw : reply'.Brings w) : call.outcome reply = call.outcome reply' := by
  rw [outcome_brought hv, outcome_brought hw, (read_lenient hc).of_edits h]

/-- A worker told of in brief, and in another order with a default and with a member that holds no
number. -/
theorem worker_is_told_twice :
    let reply (text : String) : Reply := ⟨200, some (Text.utf8 text)⟩
    let brief := reply
      "\x7b\"worker\":\x7b\"worker_id\":\"w1\"\x7d,\"versions\":[\x7b\"id\":1\x7d]\x7d"
    let full := reply ("\x7b\"versions\":[\x7b\"big\":1e999,\"id\":1\x7d]," ++
      "\"worker\":\x7b\"worker_id\":\"w1\",\"status\":\"\"\x7d\x7d")
    let told : WorkerDetail := ⟨⟨"w1", "", "", none⟩, [⟨1, "", 0, "", "", ""⟩]⟩
    (getWorker "w1" 0).outcome brief = .ok told ∧ (getWorker "w1" 0).outcome full = .ok told := by
  intro reply brief full told
  let number : Json.Number := ⟨false, ['1'], [], some (false, ['9', '9', '9'])⟩
  let name : Option String × Json := (some "worker_id", .ofString "w1")
  let status : Option String × Json := (some "status", .ofString "")
  let first : Option String × Json := (some "id", .ofNat 1)
  let big : Option String × Json := (some "big", .number number)
  let worker (members : List (Option String × Json)) : Option String × Json :=
    (some "worker", .object members)
  let versions (members : List (Option String × Json)) : Option String × Json :=
    (some "versions", .array [.object members])
  have hstatus : Edit (.record .worker) (.object [name]) (.object [name, status]) :=
    @Edit.fill .worker [name] [] (.text "status") _ (by simp [RecordKind.fields]) rfl (by decide)
  have hbig : Edit (.record .version) (.object [first]) (.object [big, first]) :=
    @Edit.insert .version [] [first] "big" _
      (by simp [RecordKind.fields, Field.needed, Field.text, Field.count])
  have hworker : Edit (.record .workerDetail) (.object [worker [name], versions [first]])
      (.object [worker [name, status], versions [first]]) :=
    @Edit.member _ [] _ (some "worker") _ _ hstatus
  have hversions : Edit (.record .workerDetail) (.object [worker [name, status], versions [first]])
      (.object [worker [name, status], versions [big, first]]) :=
    @Edit.member _ [worker [name, status]] [] (some "versions") _ _ (@Edit.listed _ [] [] _ _ hbig)
  have hswap : Edit (.record .workerDetail)
      (.object [worker [name, status], versions [big, first]])
      (.object [versions [big, first], worker [name, status]]) := .permute (.swap ..)
  have hbrief : brief.Brings (.object [worker [name], versions [first]]) :=
    ⟨rfl, _, by decide +kernel, Json.print_document ⟨⟨rfl, ⟨rfl, rfl⟩, trivial⟩,
      ⟨rfl, ⟨⟨rfl, Json.nat_spelled 1⟩, trivial⟩, trivial⟩, trivial⟩⟩
  have hnumber : number.Spelled :=
    ⟨.inr ⟨'1', [], rfl, by decide, by simp [Text.isDigit]⟩, by simp [number],
      by simp [number, Text.isDigit]⟩
  have hfull : full.Brings (.object [versions [big, first], worker [name, status]]) :=
    ⟨rfl, _, by decide +kernel, Json.print_document
      ⟨⟨rfl, ⟨⟨rfl, hnumber⟩, ⟨rfl, Json.nat_spelled 1⟩, trivial⟩, trivial⟩,
        ⟨rfl, ⟨rfl, rfl⟩, ⟨rfl, rfl⟩, trivial⟩, trivial⟩⟩
  have hsame : (getWorker "w1" 0).outcome brief = (getWorker "w1" 0).outcome full :=
    replies_are_read_leniently rfl
      (.trans _ _ _ (.rel _ _ hworker) (.trans _ _ _ (.rel _ _ hversions) (.rel _ _ hswap)))
      hbrief hfull
  have htold : (getWorker "w1" 0).outcome brief = .ok told := outcome_brought hbrief
  exact ⟨htold, hsame ▸ htold⟩

end Call
end SignedConsole
