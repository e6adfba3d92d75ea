import SignedConsole.Proofs.PercentRoundTrip
import SignedConsole.Proofs.TextPieces

namespace SignedConsole.Url

def isOuter (c : Char) : Bool := c.toNat ≤ 0x20

def isKept (c : Char) : Bool := c != '\t' && c != '\n' && c != '\r'

/-- The end of an address as it counts. -/
def tidied (cs : List Char) : List Char := ((cs.reverse.dropWhile isOuter).reverse).filter isKept

/-- Where the authority of an address ends. -/
def isEnd (c : Char) : Bool := isSlash c || c == '?' || c == '#'

/-- Where the path of an address ends. -/
def isMark (c : Char) : Bool := c == '?' || c == '#'

def pathPart (cs : List Char) : List Char := cs.takeWhile fun c => !isMark c

def queryPart (cs : List Char) : Option String :=
  match (cs.takeWhile (· != '#')).dropWhile (· != '?') with
  | [] => none
  | _ :: q => some (percentEncode querySet q)

def authorityPart (cs : List Char) : List Char := cs.takeWhile fun c => !isEnd c

def restPart (cs : List Char) : List Char := cs.dropWhile fun c => !isEnd c

/-- Reads what follows the scheme and the slashes. -/
def ofParts? (secure : Bool) (cs : List Char) : Option Url :=
  (authority? secure (afterCredentials (authorityPart cs))).map fun a =>
    ⟨secure, userInfo? (credentials (authorityPart cs)), a.1, a.2,
      segments (pathPart (restPart cs)), queryPart (restPart cs)⟩

theorem pathPart_eq (cs : List Char) :
    (cs.takeWhile (· != '#')).takeWhile (· != '?') = pathPart cs := by
  unfold pathPart
  induction cs with
  | nil => rfl
  | cons c cs ih =>
    by_cases hf : c = '#'
    · simp [hf, isMark]
    by_cases hq : c = '?'
    · simp [hq, isMark]
    · simp [isMark, hf, hq] at ih ⊢
      exact ih

theorem parse_eq (text : String) : parse? text =
    (afterScheme? (cleaned text)).bind fun s => ofParts? s.1 (s.2.dropWhile isSlash) := by
  unfold parse?
  cases afterScheme? (cleaned text) with
  | none => rfl
  | some s =>
    obtain ⟨secure, cs⟩ := s
    rw [Option.bind_some, ofParts?, ← pathPart_eq]
    change Option.bind
      (authority? secure (afterCredentials (authorityPart (cs.dropWhile isSlash)))) _ = _
    cases authority? secure (afterCredentials (authorityPart (cs.dropWhile isSlash))) <;> rfl

theorem takeWhile_before {p : Char → Bool} {s : Char} (hs : p s = false) (xs ys : List Char) :
    (xs ++ s :: ys).takeWhile p = xs.takeWhile p := by
  induction xs with
  | nil => simp [hs]
  | cons x xs ih => simp [List.takeWhile_cons, ih]

theorem dropWhile_before {p : Char → Bool} {s : Char} (hs : p s = false) (xs ys : List Char) :
    (xs ++ s :: ys).dropWhile p = xs.dropWhile p ++ s :: ys := by
  induction xs with
  | nil => simp [hs]
  | cons x xs ih =>
    rw [List.cons_append, List.dropWhile_cons, List.dropWhile_cons, ih]
    split <;> rfl

theorem dropWhile_head {p : Char → Bool} {xs ys : List Char} {y : Char}
    (h : xs.dropWhile p = y :: ys) : p y = false := by
  have hhead := List.head?_dropWhile_not p xs
  rw [h] at hhead
  simpa using hhead

theorem tidied_slash (xs ys : List Char) :
    tidied (xs ++ '/' :: ys) = xs.filter isKept ++ '/' :: tidied ys := by
  have hslash : isOuter '/' = false := by decide
  rw [tidied, List.reverse_append, List.reverse_cons, List.append_assoc, List.singleton_append,
    dropWhile_before hslash, List.reverse_append, List.reverse_cons, List.reverse_reverse,
    List.append_assoc, List.filter_append]
  rfl

/-- Only the end of an address is tidied at its end. -/
theorem cleaned_append (text x : String) : cleaned (text ++ "/" ++ x) =
    (text.toList.dropWhile isOuter).filter isKept ++ '/' :: tidied x.toList := by
  have hslash : isOuter '/' = false := by decide
  have hchars : (text ++ "/" ++ x).toList = text.toList ++ '/' :: x.toList := by
    simp [String.toList_append]
  change tidied ((text ++ "/" ++ x).toList.dropWhile isOuter) = _
  rw [hchars, dropWhile_before hslash, tidied_slash]

/-- The name of a scheme has no slash in it. -/
theorem lookup_scheme_slash {cs : List Char} (h : '/' ∈ cs) :
    schemes.lookup (Text.lowerAscii (String.ofList cs)) = none := by
  have hslash : '/' ∈ (Text.lowerAscii (String.ofList cs)).toList := by
    rw [Text.lowerAscii, String.toList_ofList, String.toList_ofList]
    exact List.mem_map.mpr ⟨'/', h, rfl⟩
  rw [List.lookup_eq_none_iff]
  intro scheme hm
  have hfree : '/' ∉ scheme.1.toList := by
    rcases List.mem_cons.mp hm with rfl | hm
    · decide
    · cases List.mem_singleton.mp hm
      decide
  refine bne_iff_ne.mpr fun he => ?_
  rw [he] at hslash
  exact hfree hslash

/-- A text has no colon, or a first one. -/
theorem colon_cases (cs : List Char) : (∀ c ∈ cs, (c != ':') = true) ∨
    ∃ name rest, cs = name ++ ':' :: rest ∧ ∀ c ∈ name, (c != ':') = true := by
  induction cs with
  | nil => exact .inl nofun
  | cons c cs ih =>
    by_cases hc : c = ':'
    · exact .inr ⟨[], cs, by rw [hc, List.nil_append], nofun⟩
    have hc : (c != ':') = true := bne_iff_ne.mpr hc
    rcases ih with hfree | ⟨name, rest, rfl, hname⟩
    · exact .inl (List.forall_mem_cons.mpr ⟨hc, hfree⟩)
    · exact .inr ⟨c :: name, rest, rfl, List.forall_mem_cons.mpr ⟨hc, hname⟩⟩

theorem afterScheme_free {cs : List Char} (h : ∀ c ∈ cs, (c != ':') = true) :
    afterScheme? cs = none := by
  have hdrop : (cs ++ []).dropWhile (· != ':') = [] := List.dropWhile_append_of_pos h
  rw [List.append_nil] at hdrop
  rw [afterScheme?, hdrop]

theorem afterScheme_colon {name : List Char} (h : ∀ c ∈ name, (c != ':') = true)
    (rest : List Char) : afterScheme? (name ++ ':' :: rest) =
      (schemes.lookup (Text.lowerAscii (String.ofList name))).map fun secure => (secure, rest) := by
  rw [afterScheme?, List.dropWhile_append_of_pos h, List.takeWhile_append_of_pos h,
    List.dropWhile_cons_of_neg (by decide), List.takeWhile_cons_of_neg (by decide),
    List.append_nil]

theorem mem_of_afterScheme {p q : List Char} {secure : Bool} (h : afterScheme? p = some (secure, q))
    {c : Char} (hc : c ∈ q) : c ∈ p := by
  rcases colon_cases p with hfree | ⟨name, rest, rfl, hname⟩
  · rw [afterScheme_free hfree] at h
    cases h
  · rw [afterScheme_colon hname] at h
    obtain ⟨_, -, hrest⟩ := Option.map_eq_some_iff.mp h
    cases hrest
    exact List.mem_append_right name (List.mem_cons_of_mem ':' hc)

/-- Only what stands before a slash can tell the scheme. -/
theorem afterScheme_slash (p y : List Char) :
    afterScheme? (p ++ '/' :: y) = (afterScheme? p).map fun s => (s.1, s.2 ++ '/' :: y) := by
  rcases colon_cases p with hfree | ⟨name, rest, rfl, hname⟩
  · rw [afterScheme_free hfree]
    have hslash : ('/' != ':') = true := by decide
    rcases colon_cases y with hy | ⟨name, rest, rfl, hname⟩
    · exact afterScheme_free
        (List.forall_mem_append.mpr ⟨hfree, List.forall_mem_cons.mpr ⟨hslash, hy⟩⟩)
    · have hlong : ∀ c ∈ p ++ '/' :: name, (c != ':') = true :=
        List.forall_mem_append.mpr ⟨hfree, List.forall_mem_cons.mpr ⟨hslash, hname⟩⟩
      rw [← List.cons_append, ← List.append_assoc, afterScheme_colon hlong,
        lookup_scheme_slash (by simp)]
      rfl
  · rw [List.append_assoc, List.cons_append, afterScheme_colon hname, afterScheme_colon hname,
      Option.map_map]
    rfl

/-- One more segment, unless it is a point or two. -/
def place (kept : List String) (s : String) : List String :=
  if isAbove s then kept.dropLast else if isHere s then kept else kept ++ [s]

theorem resolve_cons (kept : List String) (s : String) (rest : List String) :
    resolve kept (s :: rest) =
      resolve (if rest.isEmpty && (isAbove s || isHere s) then place kept s ++ [""]
        else place kept s) rest := rfl

theorem resolve_append (kept us vs : List String) (hv : vs ≠ []) :
    resolve kept (us ++ vs) = resolve (us.foldl place kept) vs := by
  induction us generalizing kept with
  | nil => rfl
  | cons u us ih =>
    have hmore : (us ++ vs).isEmpty = false := by simp [hv]
    rw [List.cons_append, resolve_cons, hmore]
    exact ih (place kept u)

theorem resolve_plain {s : String} (ha : isAbove s = false) (hh : isHere s = false)
    (kept rest : List String) : resolve kept (s :: rest) = resolve (kept ++ [s]) rest := by
  simp [resolve_cons, place, ha, hh]

theorem resolve_empty (kept : List String) : resolve kept [""] = kept ++ [""] :=
  resolve_plain (by decide) (by decide) kept []

/-- From some place on, segments are empty or come from the pieces that are resolved. -/
theorem resolve_from {p : String → Prop} (hempty : p "") {n : Nat} {kept pieces : List String}
    (hkept : ∀ s ∈ kept.drop n, p s)
    (hpieces : ∀ s ∈ pieces, isAbove s = false → isHere s = false → p s) :
    ∀ s ∈ (resolve kept pieces).drop n, p s := by
  have hmore {kept : List String} {s : String} (hs : p s) (h : ∀ t ∈ kept.drop n, p t) :
      ∀ t ∈ (kept ++ [s]).drop n, p t := by
    intro t ht
    rw [List.drop_append] at ht
    rcases List.mem_append.mp ht with ht | ht
    · exact h t ht
    · rw [List.mem_singleton.mp (List.mem_of_mem_drop ht)]
      exact hs
  induction pieces generalizing kept with
  | nil => exact hkept
  | cons s rest ih =>
    have hplace : ∀ t ∈ (place kept s).drop n, p t := by
      unfold place
      split
      · exact fun t ht => hkept t (((List.dropLast_sublist kept).drop n).subset ht)
      split
      · exact hkept
      · rename_i ha hh
        exact hmore (hpieces s List.mem_cons_self (Bool.eq_false_iff.mpr ha)
          (Bool.eq_false_iff.mpr hh)) hkept
    have hrest : ∀ t ∈ rest, isAbove t = false → isHere t = false → p t :=
      fun t ht => hpieces t (List.mem_cons_of_mem _ ht)
    rw [resolve_cons]
    split
    · exact ih (hmore hempty hplace) hrest
    · exact ih hplace hrest

/-- What comes to stand right behind the segments kept so far was not among them. -/
theorem resolve_behind {kept front behind : List String} {pieces : List (List Char)} {s : String}
    (h : resolve kept (pieces.map (percentEncode pathSet)) = front ++ s :: behind)
    (hlength : front.length = kept.length) :
    s = "" ∨ ∃ piece ∈ pieces, s = percentEncode pathSet piece ∧
      isAbove s = false ∧ isHere s = false := by
  have hfrom : ∀ t ∈ (resolve kept (pieces.map (percentEncode pathSet))).drop kept.length,
      t = "" ∨ ∃ piece ∈ pieces, t = percentEncode pathSet piece ∧
        isAbove t = false ∧ isHere t = false := by
    refine resolve_from (.inl rfl) (by simp) ?_
    intro t ht habove hhere
    obtain ⟨piece, hpiece, rfl⟩ := List.mem_map.mp ht
    exact .inr ⟨piece, hpiece, rfl, habove, hhere⟩
  rw [h, ← hlength, List.drop_left] at hfrom
  exact hfrom s List.mem_cons_self

theorem lower_cases (c : Char) : c.toLower = c ∨ c.toLower.toNat = c.toNat + 32 ∧ 65 ≤ c.toNat := by
  unfold Char.toLower
  split
  · rename_i hc
    right
    have hlow : 65 ≤ c.val.toNat := hc.1
    have hhigh : c.val.toNat ≤ 90 := hc.2
    refine ⟨?_, hlow⟩
    change (c.val + 32).toNat = c.val.toNat + 32
    have h32 : (32 : UInt32).toNat = 32 := rfl
    rw [UInt32.toNat_add, h32]
    exact Nat.mod_eq_of_lt (by omega)
  · exact Or.inl rfl

theorem eq_of_lower {c d : Char} (h : c.toLower = d) (hd : d.toNat < 97) : c = d := by
  rcases lower_cases c with hc | ⟨hc, hlow⟩
  · exact hc.symm.trans h
  · rw [h] at hc
    omega

theorem e_of_lower {c : Char} (h : c.toLower = 'e') : c = 'e' ∨ c = 'E' := by
  rcases lower_cases c with hc | ⟨hc, -⟩
  · exact .inl (hc.symm.trans h)
  · rw [h] at hc
    have he : ('e').toNat = 69 + 32 := rfl
    have hvalue : c.toNat = 69 := by omega
    have hchar := Char.ofNat_toNat c
    rw [hvalue] at hchar
    exact .inr hchar.symm

/-- A point, spelled either way. -/
def IsPoint (cs : List Char) : Prop :=
  cs.map Char.toLower = ['.'] ∨ cs.map Char.toLower = ['%', '2', 'e']

theorem IsPoint.decode {point : List Char} (h : IsPoint point) (cs : List Char) :
    percentDecode (point ++ cs) = String.utf8EncodeChar '.' ++ percentDecode cs := by
  rcases h with h | h
  · obtain ⟨c, rfl, hc⟩ := List.map_eq_singleton_iff.mp h
    rw [eq_of_lower hc (by decide)]
    exact percentDecode_other (by decide) cs
  · obtain ⟨a, more, rfl, ha, h⟩ := List.map_eq_cons_iff.mp h
    obtain ⟨b, more, rfl, hb, h⟩ := List.map_eq_cons_iff.mp h
    obtain ⟨c, rfl, hc⟩ := List.map_eq_singleton_iff.mp h
    rw [eq_of_lower ha (by decide), eq_of_lower hb (by decide)]
    rcases e_of_lower hc with rfl | rfl
    · exact percentDecode_escape rfl cs
    · exact percentDecode_escape rfl cs

theorem lowerAscii_chars {s t : String} (h : (Text.lowerAscii s == t) = true) :
    s.toList.map Char.toLower = t.toList := by
  rw [← eq_of_beq h, Text.lowerAscii, String.toList_ofList]

theorem isHere_point {s : String} (h : isHere s = true) : IsPoint s.toList := by
  rcases Bool.or_eq_true_iff.mp h with h | h
  · exact .inl (lowerAscii_chars h)
  · exact .inr (lowerAscii_chars h)

theorem isAbove_points {s : String} (h : isAbove s = true) :
    ∃ p q, s.toList = p ++ q ∧ IsPoint p ∧ IsPoint q := by
  have hpoints (xs ys : List Char) (hl : s.toList.map Char.toLower = xs ++ ys)
      (hx : xs = ['.'] ∨ xs = ['%', '2', 'e']) (hy : ys = ['.'] ∨ ys = ['%', '2', 'e']) :
      ∃ p q, s.toList = p ++ q ∧ IsPoint p ∧ IsPoint q := by
    obtain ⟨p, q, hs, rfl, rfl⟩ := List.map_eq_append_iff.mp hl
    exact ⟨p, q, hs, hx, hy⟩
  rcases Bool.or_eq_true_iff.mp h with h | h
  · rcases Bool.or_eq_true_iff.mp h with h | h
    · rcases Bool.or_eq_true_iff.mp h with h | h
      · exact hpoints ['.'] ['.'] (lowerAscii_chars h) (.inl rfl) (.inl rfl)
      · exact hpoints ['.'] ['%', '2', 'e'] (lowerAscii_chars h) (.inl rfl) (.inr rfl)
    · exact hpoints ['%', '2', 'e'] ['.'] (lowerAscii_chars h) (.inr rfl) (.inl rfl)
  · exact hpoints ['%', '2', 'e'] ['%', '2', 'e'] (lowerAscii_chars h) (.inr rfl) (.inr rfl)

theorem decode_here {s : String} (h : isHere s = true) :
    percentDecode s.toList = Text.utf8 "." := by
  have hdecode := (isHere_point h).decode []
  rwa [List.append_nil] at hdecode

theorem decode_above {s : String} (h : isAbove s = true) :
    percentDecode s.toList = Text.utf8 ".." := by
  obtain ⟨p, q, hs, hp, hq⟩ := isAbove_points h
  have hdecode := hq.decode []
  rw [List.append_nil] at hdecode
  rw [hs, hp.decode, hdecode]
  rfl

/-- What stands before a slash has its segments whatever comes behind. -/
theorem segments_slash (cs : List Char) (h : ∀ c ∈ cs.head?, isSlash c = true) : ∃ kept, ∀ y,
    segments (cs ++ '/' :: y) =
      resolve kept ((Text.splitWith isSlash y).map (percentEncode pathSet)) := by
  have hslash : isSlash '/' = true := rfl
  cases cs with
  | nil => exact ⟨[], fun y => by simp [segments, hslash]⟩
  | cons c cs =>
    have hc : isSlash c = true := h c rfl
    refine ⟨((Text.splitWith isSlash cs).map (percentEncode pathSet)).foldl place [], ?_⟩
    intro y
    have hne : (Text.splitWith isSlash y).map (percentEncode pathSet) ≠ [] := by
      simp [Text.splitWith_ne_nil]
    rw [List.cons_append, segments]
    simp only [hc, ↓reduceIte]
    rw [Text.splitWith_append isSlash hslash, List.map_append, resolve_append _ _ _ hne]

/-- A text that is an address when a slash is put behind it, and has neither query nor fragment. -/
structure IsBase (text : String) (base : Url) : Prop where
  parses : parse? (text ++ "/") = some base
  noQuery : '?' ∉ text.toList
  noFragment : '#' ∉ text.toList

theorem ofParts_user {secure : Bool} {cs : List Char} {u : Url} (h : ofParts? secure cs = some u) :
    u.user = userInfo? (credentials (authorityPart cs)) := by
  obtain ⟨_, -, rfl⟩ := Option.map_eq_some_iff.mp h
  rfl

theorem authorityPart_slash (cs y : List Char) :
    authorityPart (cs ++ '/' :: y) = authorityPart cs := takeWhile_before rfl cs y

/-- Whether there is an authority does not depend on what comes behind it. -/
theorem ofParts_isSome (secure : Bool) (cs y : List Char) :
    (ofParts? secure (cs ++ '/' :: y)).isSome = (ofParts? secure cs).isSome := by
  rw [ofParts?, ofParts?, authorityPart_slash, Option.isSome_map, Option.isSome_map]

/-- Where the authority would stand in what is put behind a slash. -/
def front (x : String) : List Char := authorityPart ((tidied x.toList).dropWhile isSlash)

/-- What stands before the slash is read apart from what is put behind it. -/
theorem parse_slash (text x : String) : parse? (text ++ "/" ++ x) =
    (afterScheme? ((text.toList.dropWhile isOuter).filter isKept)).bind fun s =>
      ofParts? s.1 ((s.2 ++ '/' :: tidied x.toList).dropWhile isSlash) := by
  rw [parse_eq, cleaned_append, afterScheme_slash]
  cases afterScheme? ((text.toList.dropWhile isOuter).filter isKept) <;> rfl

theorem parse_slash_alone (text : String) : parse? (text ++ "/") =
    (afterScheme? ((text.toList.dropWhile isOuter).filter isKept)).bind fun s =>
      ofParts? s.1 ((s.2 ++ ['/']).dropWhile isSlash) := by
  have hslash := parse_slash text ""
  rwa [String.append_empty] at hslash

/-- An address below a text names whom the text names, unless the authority is read from what is put
behind the text. -/
theorem parse_slash_user {text x : String} {u : Url} (h : parse? (text ++ "/" ++ x) = some u) :
    (∃ base, parse? (text ++ "/") = some base ∧ u.user = base.user) ∨
    parse? (text ++ "/") = none ∧ u.user = userInfo? (credentials (front x)) := by
  rw [parse_slash] at h
  obtain ⟨⟨secure, q⟩, hscheme, hparts⟩ := Option.bind_eq_some_iff.mp h
  rw [parse_slash_alone, hscheme, Option.bind_some, List.dropWhile_append]
  rw [List.dropWhile_append] at hparts
  by_cases hq : (q.dropWhile isSlash).isEmpty = true
  · rw [if_pos hq] at hparts
    exact .inr ⟨by rw [if_pos hq]; rfl, ofParts_user hparts⟩
  · rw [if_neg hq] at hparts ⊢
    left
    have hsome := ofParts_isSome secure (q.dropWhile isSlash)
    obtain ⟨base, hbase⟩ : ∃ base, ofParts? secure (q.dropWhile isSlash ++ ['/']) = some base := by
      rw [← Option.isSome_iff_exists, hsome, ← hsome (tidied x.toList), hparts]
      rfl
    refine ⟨base, hbase, ?_⟩
    rw [ofParts_user hparts, ofParts_user hbase, authorityPart_slash, authorityPart_slash]

theorem pathPart_append {cs : List Char} (h : ∀ c ∈ cs, isMark c = false) (more : List Char) :
    pathPart (cs ++ more) = cs ++ pathPart more :=
  List.takeWhile_append_of_pos fun c hc => by simp [h c hc]

theorem pathPart_front (cs : List Char) : pathPart cs <+: cs := List.takeWhile_prefix _

theorem pathPart_unmarked {cs : List Char} {c : Char} (h : c ∈ pathPart cs) :
    isMark c = false := by
  have hc := List.all_eq_true.mp List.all_takeWhile c h
  simpa using hc

theorem queryPart_append {cs : List Char} (h : ∀ c ∈ cs, isMark c = false) (more : List Char) :
    queryPart (cs ++ more) = queryPart more := by
  have hfragment : ∀ c ∈ cs, (c != '#') = true := fun c hc => by
    have hc := h c hc
    simp_all [isMark]
  have hquery : ∀ c ∈ cs, (c != '?') = true := fun c hc => by
    have hc := h c hc
    simp_all [isMark]
  unfold queryPart
  rw [List.takeWhile_append_of_pos hfragment, List.dropWhile_append_of_pos hquery]

theorem pathPart_slash (cs : List Char) : pathPart ('/' :: cs) = '/' :: pathPart cs := rfl

theorem queryPart_slash (cs : List Char) : queryPart ('/' :: cs) = queryPart cs := rfl

theorem ofParts_slash {secure : Bool} {cs : List Char} {base : Url}
    (hmarks : ∀ c ∈ cs, isMark c = false) (h : ofParts? secure (cs ++ ['/']) = some base)
    (y : List Char) : ofParts? secure (cs ++ '/' :: y) =
      some ⟨base.secure, base.user, base.host, base.port, resolve base.path.dropLast
        ((Text.splitWith isSlash (pathPart y)).map (percentEncode pathSet)), queryPart y⟩ := by
  have hend : (!isEnd '/') = false := rfl
  have hrest : ∀ c ∈ restPart cs, isMark c = false := fun c hc =>
    hmarks c ((List.dropWhile_suffix _).subset hc)
  -- Only a slash can end the authority, since the text has no other end.
  have hhead : ∀ c ∈ (restPart cs).head?, isSlash c = true := by
    intro c hc
    obtain ⟨more, hmore⟩ := List.head?_eq_some_iff.mp hc
    have hc : isEnd c = true := by simpa using dropWhile_head hmore
    have hnot := hrest c (hmore ▸ List.mem_cons_self)
    simp_all [isEnd, isMark]
  obtain ⟨kept, hkept⟩ := segments_slash (restPart cs) hhead
  have hparts (y : List Char) : ofParts? secure (cs ++ '/' :: y) =
      (authority? secure (afterCredentials (authorityPart cs))).map fun a =>
        ⟨secure, userInfo? (credentials (authorityPart cs)), a.1, a.2, resolve kept
          ((Text.splitWith isSlash (pathPart y)).map (percentEncode pathSet)), queryPart y⟩ := by
    unfold ofParts?
    rw [authorityPart, takeWhile_before hend, restPart, dropWhile_before hend]
    rw [← restPart, pathPart_append hrest, queryPart_append hrest, pathPart_slash,
      queryPart_slash, hkept]
    rfl
  rw [hparts] at h ⊢
  cases hauthority : authority? secure (afterCredentials (authorityPart cs)) with
  | none =>
    rw [hauthority] at h
    cases h
  | some a =>
    rw [hauthority] at h
    have hbase := Option.some.inj h
    have hpath : base.path = kept ++ [""] := by
      rw [← hbase]
      exact resolve_empty kept
    rw [hpath, List.dropLast_concat, ← hbase]
    rfl

/-- What is put behind a base and a slash goes onto the segments of the base. -/
theorem IsBase.below {text : String} {base : Url} (h : IsBase text base) (x : String) :
    parse? (text ++ "/" ++ x) = some ⟨base.secure, base.user, base.host, base.port,
      resolve base.path.dropLast
        ((Text.splitWith isSlash (pathPart (tidied x.toList))).map (percentEncode pathSet)),
      queryPart (tidied x.toList)⟩ := by
  obtain ⟨hparses, hquery, hfragment⟩ := h
  rw [parse_slash_alone] at hparses
  obtain ⟨⟨secure, q⟩, hscheme, hparts⟩ := Option.bind_eq_some_iff.mp hparses
  have hmarks : ∀ c ∈ q, isMark c = false := by
    intro c hc
    have hkept := mem_of_afterScheme hscheme hc
    have hmem := (List.dropWhile_suffix _).subset (List.mem_filter.mp hkept).1
    have hq : c ≠ '?' := fun he => hquery (he ▸ hmem)
    have hf : c ≠ '#' := fun he => hfragment (he ▸ hmem)
    simp [isMark, hq, hf]
  rw [parse_slash, hscheme, Option.bind_some, List.dropWhile_append]
  rw [List.dropWhile_append] at hparts
  split at hparts
  · -- Nothing but slashes is no address.
    cases hparts
  · rename_i hne
    rw [if_neg hne]
    exact ofParts_slash (fun c hc => hmarks c ((List.dropWhile_suffix _).subset hc)) hparts _

/-- Names that an address keeps as they are. -/
def KeepsName (name : String) : Prop :=
  (Text.splitWith isSlash (pathPart (tidied (name ++ "/").toList))).map (percentEncode pathSet) =
      [name, ""] ∧ queryPart (tidied (name ++ "/").toList) = none ∧
    (isAbove name = false ∧ isHere name = false) ∧ '?' ∉ name.toList ∧ '#' ∉ name.toList

instance (name : String) : Decidable (KeepsName name) := inferInstanceAs (Decidable (_ ∧ _))

/-- A base with a name behind it is a base. -/
theorem IsBase.name {text : String} {base : Url} (h : IsBase text base) {name : String}
    (hname : KeepsName name) : IsBase (text ++ "/" ++ name)
      ⟨base.secure, base.user, base.host, base.port, base.path.dropLast ++ [name, ""], none⟩ := by
  obtain ⟨hpieces, hquery, ⟨habove, hhere⟩, hmark, hsign⟩ := hname
  have hplace : resolve base.path.dropLast [name, ""] = base.path.dropLast ++ [name, ""] := by
    rw [resolve_plain habove hhere, resolve_empty, List.append_assoc, List.singleton_append]
  refine ⟨?_, ?_, ?_⟩
  · have hbelow := h.below (name ++ "/")
    rw [hpieces, hquery, hplace] at hbelow
    rw [String.append_assoc, hbelow]
  · have hslash : '?' ≠ '/' := by decide
    simp [String.toList_append, h.noQuery, hmark, hslash]
  · have hslash : '#' ≠ '/' := by decide
    simp [String.toList_append, h.noFragment, hsign, hslash]

theorem kept_of_not_outer {c : Char} (h : isOuter c = false) : isKept c = true := by
  have hne (d : Char) (hd : isOuter d = true) : c ≠ d := by
    rintro rfl
    rw [hd] at h
    cases h
  simp [isKept, hne '\t' (by decide), hne '\n' (by decide), hne '\r' (by decide)]

theorem kept_of_not_blank {c : Char} (h : Text.isBlank c = false) : isKept c = true := by
  have hne (d : Char) (hd : Text.isBlank d = true) : c ≠ d := by
    rintro rfl
    rw [hd] at h
    cases h
  simp [isKept, hne '\t' (by decide), hne '\n' (by decide), hne '\r' (by decide)]

/-- The end of an address without line breaks loses what is behind its last character that
counts. -/
theorem tidied_front {cs : List Char} (h : ∀ c ∈ cs, isKept c = true) :
    tidied cs <+: cs ∧ (tidied cs).getLast?.any isOuter = false := by
  have hsuffix := List.dropWhile_suffix (l := cs.reverse) isOuter
  have hcut : tidied cs = (cs.reverse.dropWhile isOuter).reverse := by
    apply List.filter_eq_self.mpr
    intro c hc
    exact h c (List.mem_reverse.mp (hsuffix.subset (List.mem_reverse.mp hc)))
  rw [hcut]
  constructor
  · rw [← List.reverse_suffix, List.reverse_reverse]
    exact hsuffix
  · rw [List.getLast?_reverse]
    cases hrest : cs.reverse.dropWhile isOuter with
    | nil => rfl
    | cons c more => exact dropWhile_head hrest

theorem tidied_same {cs : List Char} (h : ∀ c ∈ cs, isKept c = true)
    (hlast : cs.getLast?.any isOuter = false) : tidied cs = cs := by
  have hstop : cs.reverse.dropWhile isOuter = cs.reverse := by
    rw [← List.head?_reverse] at hlast
    cases hcs : cs.reverse with
    | nil => rfl
    | cons c more =>
      rw [hcs] at hlast
      have hc : isOuter c = false := hlast
      rw [List.dropWhile_cons_of_neg (by simp [hc])]
  rw [tidied, hstop, List.reverse_reverse]
  exact List.filter_eq_self.mpr h

end SignedConsole.Url
