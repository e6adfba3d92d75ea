import SignedConsole.Proofs.ResourceTargets
import SignedConsole.Proofs.UrlPaths
import SignedConsole.Proofs.Utf8RoundTrip

namespace SignedConsole

/-- What cuts a name in an address. -/
def Url.isCut (c : Char) : Bool := isSlash c || isMark c

/-- Names that stand for themselves where they are put in an address. -/
structure Target.IsPlain (t : Target) : Prop where
  uncut : t.id.toList.any Url.isCut = false
  unescaped : Url.hasEscape t.id.toList = false
  notHere : t.id ≠ "."
  notAbove : t.id ≠ ".."
  /-- The end of an address is not read if it is a control character. -/
  ending : t.facet = .whole → t.id.toList.getLast?.any Url.isOuter = false

instance (t : Target) : Decidable t.IsPlain :=
  decidable_of_iff (t.id.toList.any Url.isCut = false ∧ Url.hasEscape t.id.toList = false ∧
      t.id ≠ "." ∧ t.id ≠ ".." ∧
      (t.facet = .whole → t.id.toList.getLast?.any Url.isOuter = false))
    ⟨fun ⟨h₁, h₂, h₃, h₄, h₅⟩ => ⟨h₁, h₂, h₃, h₄, h₅⟩,
      fun ⟨h₁, h₂, h₃, h₄, h₅⟩ => ⟨h₁, h₂, h₃, h₄, h₅⟩⟩

/-- Whether an address is the one of a target below a base: behind the segments of the base stand
the kind, the name as one segment, and what is asked for. -/
structure Target.IsAt (t : Target) (base url : Url) : Prop where
  secure : url.secure = base.secure
  user : url.user = base.user
  host : url.host = base.host
  port : url.port = base.port
  path : ∃ segment, url.path = base.path.dropLast ++ ["api", t.kind.name, segment] ++
      t.facet.segments ∧ Url.percentDecode segment.toList = Text.utf8 t.id
  query : url.query = t.facet.query

theorem Kind.name_injective : ∀ {k k' : Kind}, k.name = k'.name → k = k' := by
  intro k k' h
  cases k <;> cases k' <;> first | rfl | exact absurd h (by decide)

theorem Facet.eq_of_parts {f f' : Facet} (hs : f.segments = f'.segments)
    (hq : f.query = f'.query) : f = f' := by
  cases f with
  | behind n =>
    cases f' with
    | behind m =>
      have hchars := congrArg String.toList (Option.some.inj hq)
      rw [String.toList_append, String.toList_append] at hchars
      have hdigits := String.toList_inj.mp (List.append_cancel_left hchars)
      rw [Nat.succ.inj (Text.decimal_injective hdigits)]
    | _ => cases hq
  | whole | environment | secrets =>
    cases f' with
    | behind => cases hq
    | _ => first | rfl | simp [segments] at hs

/-- An address is that of one target only. -/
theorem Target.eq_of_isAt {t t' : Target} {base url : Url} (h : t.IsAt base url)
    (h' : t'.IsAt base url) : t = t' := by
  obtain ⟨segment, hpath, hid⟩ := h.path
  obtain ⟨segment', hpath', hid'⟩ := h'.path
  rw [hpath, List.append_assoc, List.append_assoc] at hpath'
  have hbehind := List.append_cancel_left hpath'
  simp only [List.cons_append, List.nil_append, List.cons.injEq, true_and] at hbehind
  obtain ⟨hkind, rfl, hsegments⟩ := hbehind
  have hname : t.id = t'.id := Text.utf8_injective (hid.symm.trans hid')
  have hfacet := Facet.eq_of_parts hsegments (h.query.symm.trans h'.query)
  obtain ⟨kind, id, facet⟩ := t
  obtain ⟨kind', id', facet'⟩ := t'
  cases Kind.name_injective hkind
  cases hname
  cases hfacet
  rfl

/-- What stands in an address from the name on. -/
def Target.rest (t : Target) : List Char := t.id.toList ++ t.facet.text.toList

theorem api_kept : Url.KeepsName "api" := by decide +kernel

theorem Kind.name_kept (k : Kind) : Url.KeepsName k.name := by cases k <;> decide +kernel

theorem Target.parse_address {text : String} {base : Url} (h : Url.IsBase text base) (t : Target) :
    Url.parse? (text ++ t.address) = some ⟨base.secure, base.user, base.host, base.port,
      Url.resolve (base.path.dropLast ++ ["api", t.kind.name])
        ((Text.splitWith Url.isSlash (Url.pathPart (Url.tidied t.rest))).map
          (Url.percentEncode Url.pathSet)),
      Url.queryPart (Url.tidied t.rest)⟩ := by
  have hkind := (h.name api_kept).name t.kind.name_kept
  have hbelow := hkind.below (t.id ++ t.facet.text)
  have haddress : text ++ t.address =
      text ++ "/" ++ "api" ++ "/" ++ t.kind.name ++ "/" ++ (t.id ++ t.facet.text) := by
    have hapi : "/api/" = "/" ++ "api" ++ "/" := by decide
    simp only [address, hapi, String.append_assoc]
  have hpath : (base.path.dropLast ++ ["api", ""]).dropLast ++ [t.kind.name, ""] =
      base.path.dropLast ++ ["api", t.kind.name] ++ [""] := by
    rw [List.dropLast_append_of_ne_nil (by simp)]
    simp
  rw [haddress, hbelow]
  dsimp only
  rw [hpath, List.dropLast_concat, String.toList_append]
  rfl

theorem Url.queryPart_mark {cs : List Char} (h : ∀ c ∈ cs, c ≠ '#' ∧ querySet c = false) :
    queryPart ('?' :: cs) = some (String.ofList cs) := by
  have hall : ∀ c ∈ '?' :: cs, (c != '#') = true := by
    intro c hc
    rcases List.mem_cons.mp hc with rfl | hc
    · decide
    · simp [(h c hc).1]
  have htake : ('?' :: cs).takeWhile (· != '#') = '?' :: cs := by
    have happend : ('?' :: cs ++ []).takeWhile (· != '#') = _ :=
      List.takeWhile_append_of_pos hall
    simpa using happend
  have hsame : percentEncode querySet cs = String.ofList cs := by
    apply String.toList_inj.mp
    rw [percentEncode_same fun c hc => (h c hc).2, String.toList_ofList]
  rw [queryPart, htake, ← hsame]
  rfl

theorem digit_plain {c : Char} (h : Text.isDigit c = true) :
    Url.isOuter c = false ∧ c ≠ '#' ∧ Url.querySet c = false := by
  have hall : ∀ n < 128, Text.isDigit (Char.ofNat n) = true → Url.isOuter (Char.ofNat n) = false ∧
      Char.ofNat n ≠ '#' ∧ Url.querySet (Char.ofNat n) = false := by
    decide
  have hhex : Url.isHexDigit c = true := by simp [Url.isHexDigit, Text.hexValue?, h]
  have hc := hall c.toNat (Url.isHexDigit_lt hhex)
  rw [Char.ofNat_toNat] at hc
  exact hc h

theorem Facet.text_parts (f : Facet) :
    Url.pathPart f.text.toList = (f.segments.map String.toList).flatMap ('/' :: ·) ∧
      Url.queryPart f.text.toList = f.query ∧ ∀ c ∈ f.text.toList, Url.isOuter c = false := by
  cases f with
  | whole => exact ⟨rfl, rfl, nofun⟩
  | environment => exact ⟨rfl, rfl, Text.none_of_any (by decide)⟩
  | secrets => exact ⟨rfl, rfl, Text.none_of_any (by decide)⟩
  | behind n =>
    have hplain : ∀ c ∈ ("offset=" ++ Text.decimal (n + 1)).toList,
        Url.isOuter c = false ∧ c ≠ '#' ∧ Url.querySet c = false := by
      intro c hc
      rw [String.toList_append] at hc
      rcases List.mem_append.mp hc with hc | hc
      · have hall : "offset=".toList.any (fun c => Url.isOuter c || c == '#' || Url.querySet c) =
            false := by decide
        simpa [and_assoc] using Text.none_of_any hall c hc
      · exact digit_plain (Text.decimal_digit hc)
    have htext : (Facet.behind n).text.toList =
        '?' :: ("offset=" ++ Text.decimal (n + 1)).toList := by
      rw [text, String.toList_append, String.toList_append]
      rfl
    rw [htext]
    refine ⟨rfl, ?_, ?_⟩
    · rw [Url.queryPart_mark fun c hc => (hplain c hc).2, String.ofList_toList]
      rfl
    · intro c hc
      rcases List.mem_cons.mp hc with rfl | hc
      · decide
      · exact (hplain c hc).1

theorem Facet.whole_of_no_text {f : Facet} (h : f.text.toList = []) : f = .whole := by
  cases f with
  | whole => rfl
  | behind n => simp [text, String.toList_append] at h
  | environment => cases h
  | secrets => cases h

/-- Names that a line can hold: not empty, and without white space. -/
structure Target.IsWord (t : Target) : Prop where
  solid : t.id.toList ≠ []
  unbroken : ∀ c ∈ t.id.toList, Text.isBlank c = false

section
variable {t : Target}

theorem Target.IsWord.kept (h : t.IsWord) : ∀ c ∈ t.rest, Url.isKept c = true := by
  intro c hc
  rcases List.mem_append.mp hc with hc | hc
  · exact Url.kept_of_not_blank (h.unbroken c hc)
  · exact Url.kept_of_not_outer (t.facet.text_parts.2.2 c hc)

/-- Only a name that ends the address can lose its end. -/
theorem Target.IsWord.tidied (h : t.IsWord)
    (hend : t.facet = .whole → t.id.toList.getLast?.any Url.isOuter = false) :
    Url.tidied t.rest = t.rest := by
  apply Url.tidied_same h.kept
  rw [rest, List.getLast?_append]
  cases hlast : t.facet.text.toList.getLast? with
  | some c => exact t.facet.text_parts.2.2 c (List.mem_of_getLast? hlast)
  | none => exact hend (Facet.whole_of_no_text (List.getLast?_eq_none_iff.mp hlast))

end

/-- What stands behind the name are segments as they are. -/
theorem Facet.segments_plain (f : Facet) :
    (∀ w ∈ f.segments.map String.toList, ∀ c ∈ w, Url.isSlash c = false) ∧
      (f.segments.map String.toList).map (Url.percentEncode Url.pathSet) = f.segments ∧
      ∀ kept, Url.resolve kept f.segments = kept ++ f.segments := by
  have hone {name : String} (hn : Url.isAbove name = false ∧ Url.isHere name = false)
      (kept : List String) : Url.resolve kept [name] = kept ++ [name] :=
    Url.resolve_plain hn.1 hn.2 kept []
  have hslashes {name : List Char} (hn : name.any Url.isSlash = false) :
      ∀ w ∈ [name], ∀ c ∈ w, Url.isSlash c = false := by
    intro w hw
    rw [List.mem_singleton.mp hw]
    exact Text.none_of_any hn
  cases f with
  | whole | behind => exact ⟨nofun, rfl, fun kept => (List.append_nil kept).symm⟩
  | environment => exact ⟨hslashes (by decide), by decide +kernel, hone (by decide +kernel)⟩
  | secrets => exact ⟨hslashes (by decide), by decide +kernel, hone (by decide +kernel)⟩

section
variable {t : Target} {text : String} {base url : Url}

/-- A plain name is one segment of the path, and stands for itself there. -/
theorem Target.IsPlain.isAt (hp : t.IsPlain) (hw : t.IsWord) (hb : Url.IsBase text base)
    (h : Url.parse? (text ++ t.address) = some url) : t.IsAt base url := by
  obtain ⟨hpath, hquery, -⟩ := t.facet.text_parts
  obtain ⟨hslashes, hspelled, hresolve⟩ := t.facet.segments_plain
  have hcut := Text.none_of_any hp.uncut
  have hmark : ∀ c ∈ t.id.toList, Url.isMark c = false := fun c hc =>
    (Bool.or_eq_false_iff.mp (hcut c hc)).2
  have hslash : ∀ c ∈ t.id.toList, Url.isSlash c = false := fun c hc =>
    (Bool.or_eq_false_iff.mp (hcut c hc)).1
  have hdecode : Url.percentDecode (Url.percentEncode Url.pathSet t.id.toList).toList =
      Text.utf8 t.id := by
    rw [Url.percentDecode_encode Url.pathSet_keeps, Url.percentDecode_plain hp.unescaped]
    rfl
  have hhere : Url.isHere (Url.percentEncode Url.pathSet t.id.toList) = false := by
    rw [← Bool.not_eq_true]
    intro hpoint
    exact hp.notHere (Text.utf8_injective (hdecode.symm.trans (Url.decode_here hpoint)))
  have habove : Url.isAbove (Url.percentEncode Url.pathSet t.id.toList) = false := by
    rw [← Bool.not_eq_true]
    intro hpoints
    exact hp.notAbove (Text.utf8_injective (hdecode.symm.trans (Url.decode_above hpoints)))
  rw [t.parse_address hb, hw.tidied hp.ending, rest, Url.pathPart_append hmark,
    Url.queryPart_append hmark, hpath, hquery, Text.splitWith_joined rfl _ hslashes,
    Text.splitWith_none hslash, List.map_append, hspelled] at h
  cases h
  refine ⟨rfl, rfl, rfl, rfl, ⟨Url.percentEncode Url.pathSet t.id.toList, ?_, hdecode⟩, rfl⟩
  change Url.resolve _ (_ :: t.facet.segments) = _
  rw [Url.resolve_plain habove hhere, hresolve]
  simp

/-- The pieces of what is read from the name on are pieces of the name, but for those that are to
stand behind it. -/
theorem Target.IsWord.piece (hw : t.IsWord) {piece : List Char}
    (h : piece ∈ Text.splitWith Url.isSlash (Url.pathPart (Url.tidied t.rest))) :
    piece ∈ t.facet.segments.map String.toList ∨ piece <:+: t.id.toList := by
  have hread : piece <:+: Url.pathPart (Url.tidied t.rest) := Text.splitWith_within h
  by_cases hf : t.facet = .whole
  · right
    have hrest : t.rest = t.id.toList := by simp [rest, hf, Facet.text]
    have hfront := (Url.tidied_front hw.kept).1
    rw [hrest] at hread hfront
    exact hread.trans ((Url.pathPart_front _).isInfix.trans hfront.isInfix)
  · rw [hw.tidied fun h => absurd h hf, rest] at h hread
    unfold Url.pathPart at h hread
    rw [List.takeWhile_append] at h hread
    split at h
    · have hpath := t.facet.text_parts.1
      unfold Url.pathPart at hpath
      rw [hpath, Text.splitWith_joined rfl _ t.facet.segments_plain.1] at h
      rcases List.mem_append.mp h with h | h
      · exact .inr (Text.splitWith_within h)
      · exact .inl h
    · rename_i hcut
      rw [if_neg hcut] at hread
      exact .inr (hread.trans (Url.pathPart_front _).isInfix)

/-- No less than the whole name stands for the name. -/
theorem piece_is_name {piece name : List Char} (h : piece <:+: name)
    (hdecode : Url.percentDecode piece = name.flatMap String.utf8EncodeChar) : piece = name := by
  obtain ⟨before, behind, rfl⟩ := h
  have hlength := (Url.percentDecode_length piece).1
  have hempty {cs : List Char} (hcs : (cs.flatMap String.utf8EncodeChar).length = 0) :
      cs = [] := by
    cases cs with
    | nil => rfl
    | cons c cs =>
      have hc := c.utf8Size_pos
      simp only [List.flatMap_cons, List.length_append, String.length_utf8EncodeChar] at hcs
      omega
  rw [hdecode] at hlength
  simp only [List.flatMap_append, List.length_append] at hlength
  have hbefore : before = [] := hempty (by omega)
  have hbehind : behind = [] := hempty (by omega)
  simp [hbefore, hbehind]

theorem Facet.segment_plain (f : Facet) : ∀ name ∈ f.segments,
    Url.percentDecode name.toList = Text.utf8 name ∧ ∀ k, Target.IsPlain ⟨k, name, f⟩ := by
  cases f with
  | whole | behind => exact nofun
  | environment =>
    intro name h
    rw [List.mem_singleton.mp h]
    exact ⟨rfl, fun k => by cases k <;> decide⟩
  | secrets =>
    intro name h
    rw [List.mem_singleton.mp h]
    exact ⟨rfl, fun k => by cases k <;> decide⟩

/-- A name that is read as one piece, and for itself there, is a plain one. -/
theorem Target.IsWord.plain_of_piece (hw : t.IsWord)
    (h : t.id.toList ∈ Text.splitWith Url.isSlash (Url.pathPart (Url.tidied t.rest)))
    (hdecode : Url.percentDecode t.id.toList = Text.utf8 t.id)
    (habove : Url.isAbove (Url.percentEncode Url.pathSet t.id.toList) = false)
    (hhere : Url.isHere (Url.percentEncode Url.pathSet t.id.toList) = false) : t.IsPlain := by
  have hread : t.id.toList <:+: Url.pathPart (Url.tidied t.rest) := Text.splitWith_within h
  refine ⟨?_, ?_, ?_, ?_, ?_⟩
  · rw [List.any_eq_false]
    intro c hc
    have hslash := Text.splitWith_free h c hc
    have hmark := Url.pathPart_unmarked (hread.subset hc)
    simp [Url.isCut, hslash, hmark]
  · rw [← Bool.not_eq_true]
    intro hescape
    have hshort := (Url.percentDecode_length t.id.toList).2 hescape
    rw [hdecode] at hshort
    exact absurd hshort (Nat.lt_irrefl _)
  · intro hid
    rw [hid] at hhere
    exact absurd hhere (by decide)
  · intro hid
    rw [hid] at habove
    exact absurd habove (by decide)
  · intro hf
    have hrest : t.rest = t.id.toList := by simp [rest, hf, Facet.text]
    obtain ⟨hfront, hlast⟩ := Url.tidied_front hw.kept
    have hwhole : t.id.toList <:+: Url.tidied t.rest :=
      hread.trans (Url.pathPart_front _).isInfix
    have hsame : t.id.toList = Url.tidied t.rest := by
      apply hwhole.eq_of_length
      have hle := hfront.length_le
      rw [hrest] at hle
      exact Nat.le_antisymm hwhole.length_le (hrest ▸ hle)
    rw [hsame]
    exact hlast

/-- A name that is one segment of the path and stands for itself there is a plain one. -/
theorem Target.IsAt.isPlain (ha : t.IsAt base url) (hw : t.IsWord) (hb : Url.IsBase text base)
    (h : Url.parse? (text ++ t.address) = some url) : t.IsPlain := by
  obtain ⟨segment, hpath, hdecode⟩ := ha.path
  rw [t.parse_address hb] at h
  cases h
  dsimp only at hpath
  have hbehind : base.path.dropLast ++ ["api", t.kind.name, segment] ++ t.facet.segments =
      (base.path.dropLast ++ ["api", t.kind.name]) ++ segment :: t.facet.segments := by simp
  rcases Url.resolve_behind (hpath.trans hbehind) rfl with rfl | ⟨piece, hpiece, rfl, habove, hhere⟩
  · have hempty : "" = t.id := Text.utf8_injective hdecode
    exact absurd (congrArg String.toList hempty).symm hw.solid
  · rw [Url.percentDecode_encode Url.pathSet_keeps] at hdecode
    rcases hw.piece hpiece with hmem | hwithin
    · obtain ⟨name, hname, rfl⟩ := List.mem_map.mp hmem
      obtain ⟨hself, hplain⟩ := t.facet.segment_plain name hname
      obtain rfl : name = t.id := Text.utf8_injective (hself.symm.trans hdecode)
      exact hplain t.kind
    · obtain rfl := piece_is_name hwithin hdecode
      exact hw.plain_of_piece hpiece hdecode habove hhere

end

/-- All that a command about a resource sends goes to one address. That is the address of the
resource named in the line exactly if the name is a plain one, and then it is no other's. The base
may be of either scheme and may name who asks; its host is a bracketed address or ASCII. -/
theorem Console.plain_names_are_reached [Host σ] {d : Desk σ} {base : Url}
    (hb : Url.IsBase d.client.baseUrl base) {line : String} {t : Target}
    (ht : (Command.ofLine line).target? = some t) :
    ∃ url, Url.parse? (d.client.baseUrl ++ t.address) = some url ∧
      (∀ r ∈ (d.perform (dispatch line)).2.wire.receivedSince d.wire, r.url = url) ∧
      (t.IsAt base url ↔ t.IsPlain) ∧
      (t.IsPlain → ∀ line' t', (Command.ofLine line').target? = some t' → t'.IsPlain →
        Url.parse? (d.client.baseUrl ++ t'.address) = some url → t' = t) := by
  have hurl := t.parse_address hb
  have hword {line : String} {t : Target} (ht : (Command.ofLine line).target? = some t) :
      t.IsWord := by
    obtain ⟨hsolid, hunbroken⟩ := Text.words_solid (Command.target_word ht)
    exact ⟨hsolid, hunbroken⟩
  refine ⟨_, hurl, ?_, ⟨fun ha => ha.isPlain (hword ht) hb hurl,
    fun hp => hp.isAt (hword ht) hb hurl⟩, ?_⟩
  · intro r hr
    have hsent := ((execute_sentTo ht).step d).since r hr
    rw [hurl] at hsent
    exact (Option.some.inj hsent).symm
  · intro hp line' t' ht' hp' hurl'
    exact Target.eq_of_isAt (hp'.isAt (hword ht') hb hurl') (hp.isAt (hword ht) hb hurl)

/-- A percent sign alone means nothing to a reader of addresses. -/
theorem Console.worker_variables_are_reached :
    let d : Desk (Beside Memory) := ⟨.of "http://api.test/v1/" .hmac .failOpen,
      ⟨⟨.empty, .empty []⟩, .hmac, .of "alice" "jwt" none⟩, ⟨true, [], .hangUp, []⟩, 0, [], []⟩
    let sent := (d.perform (dispatch "worker env 100%")).2.wire.receivedSince d.wire
    sent.length = 1 ∧
      ∀ r ∈ sent, Target.IsAt ⟨.worker, "100%", .environment⟩
        ⟨false, none, "api.test", none, ["v1", ""], none⟩ r.url := by
  intro d sent
  have hb : Url.IsBase d.client.baseUrl ⟨false, none, "api.test", none, ["v1", ""], none⟩ :=
    ⟨by decide +kernel, by decide +kernel, by decide +kernel⟩
  have ht : (Command.ofLine "worker env 100%").target? = some ⟨.worker, "100%", .environment⟩ := by
    decide +kernel
  obtain ⟨url, -, hall, hreached, -⟩ := plain_names_are_reached hb ht
  refine ⟨by decide +kernel, ?_⟩
  intro r hr
  rw [hall r hr]
  exact hreached.mpr (by decide +kernel)

/-- A name of the parts of another path leads there: what is to delete a database deletes a store,
and is signed for it. Below a base with a query no name is a part of the path. -/
theorem Console.dotted_name_reaches_store :
    let d (url : String) : Desk (Beside Memory) := ⟨.of url .hmac .failOpen,
      ⟨⟨.empty, .empty []⟩, .hmac, .of "alice" "jwt" (some ⟨"sk_test"⟩)⟩,
      ⟨true, [], .hangUp, []⟩, 1700000000000, [], []⟩
    let sent (url line : String) :=
      ((d url).perform (dispatch line)).2.wire.receivedSince (d url).wire
    let t : Target := ⟨.database, "../kv/x", .whole⟩
    (d "http://api.test").vault.session.isAuthenticated = true ∧
      (Command.ofLine "rdb delete ../kv/x").target? = some t ∧
      sent "http://api.test" "rdb delete ../kv/x" = sent "http://api.test" "kv delete x" ∧
      (∃ r ∈ sent "http://api.test" "rdb delete ../kv/x",
        ¬ t.IsAt ⟨false, none, "api.test", none, [""], none⟩ r.url) ∧
      (sent "http://api.test?x" "rdb get db1").map (·.url.path) = [[""]] := by
  intro d sent t
  have hpath : (sent "http://api.test" "rdb delete ../kv/x").map (·.url.path) =
      [["api", "kv", "x"]] := by
    decide +kernel
  refine ⟨rfl, by decide +kernel, by decide +kernel, ?_, by decide +kernel⟩
  obtain ⟨r, hr, hkv⟩ := List.map_eq_singleton_iff.mp hpath
  refine ⟨r, hr ▸ List.mem_singleton_self r, ?_⟩
  intro ha
  obtain ⟨segment, hsegment, -⟩ := ha.path
  rw [hkv] at hsegment
  have hkind : some "kv" = some "rdb" := congrArg (fun path => path[1]?) hsegment
  exact absurd hkind (by decide)

end SignedConsole
