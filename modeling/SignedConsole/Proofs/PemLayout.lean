import SignedConsole.Pem
import SignedConsole.Proofs.Base64RoundTrip
import SignedConsole.Proofs.Base64Symbols
import SignedConsole.Proofs.TextPieces
import SignedConsole.Proofs.Utf8RoundTrip

namespace SignedConsole.Pem

/-- A line of a PEM text: a label, indented or not, or symbols with white space anywhere among
them. A line may have no symbols at all. -/
inductive Row where
  | label (indent name : List Char)
  | data (line : List Char)

inductive LineEnd where
  | lf
  | crlf

def LineEnd.text : LineEnd → List Char
  | .lf => ['\n']
  | .crlf => ['\r', '\n']

namespace Row

def text : Row → List Char
  | label indent name => indent ++ "-----".toList ++ name
  | data line => line

/-- What a line adds to the symbols. -/
def symbols : Row → List Char
  | label .. => []
  | data line => line.filter fun c => !Text.isBlank c

/-- Whether a line is one line, and only white space stands in front of a label. -/
def Sound : Row → Prop
  | label indent name => (∀ c ∈ indent, Text.isBlank c = true ∧ c ≠ '\n') ∧ '\n' ∉ name
  | data line => '\n' ∉ line

instance : DecidablePred Sound
  | label indent _ => @instDecidableAnd _ _ (List.decidableBAll _ indent) inferInstance
  | data _ => inferInstanceAs (Decidable (¬ _))

theorem Sound.single {r : Row} (h : r.Sound) : '\n' ∉ r.text := by
  cases r with
  | label indent name =>
    obtain ⟨hindent, hname⟩ := h
    have hdashes : '\n' ∉ "-----".toList := by decide
    simp only [text, List.mem_append, not_or]
    exact ⟨⟨fun hm => (hindent _ hm).2 rfl, hdashes⟩, hname⟩
  | data line => exact h

end Row

/-- A text of lines, the last of which has no end. -/
def layout (rows : List (Row × LineEnd)) (last : Row) : String :=
  String.ofList (rows.flatMap (fun r => r.1.text ++ r.2.text) ++ last.text)

/-- What of the end of a line stays with it. -/
def LineEnd.rest : LineEnd → List Char
  | .lf => []
  | .crlf => ['\r']

theorem LineEnd.text_eq (e : LineEnd) : e.text = e.rest ++ ['\n'] := by
  cases e <;> rfl

theorem LineEnd.rest_blank (e : LineEnd) : ∀ c ∈ e.rest, Text.isBlank c = true ∧ c ≠ '\n' := by
  cases e with
  | lf => exact List.forall_mem_nil _
  | crlf =>
    intro c hc
    rw [List.mem_singleton.mp hc]
    exact ⟨rfl, by decide⟩

theorem split_layout {rows : List (Row × LineEnd)} {last : Row} (hrows : ∀ r ∈ rows, r.1.Sound)
    (hlast : last.Sound) : Text.splitWith (· == '\n') (layout rows last).toList =
      rows.map (fun r => r.1.text ++ r.2.rest) ++ [last.text] := by
  rw [layout, String.toList_ofList]
  induction rows with
  | nil =>
    refine Text.splitWith_none fun c hc => ?_
    exact beq_false_of_ne fun h => hlast.single (h ▸ hc)
  | cons r rows ih =>
    have hline : Text.splitWith (· == '\n') (r.1.text ++ r.2.rest) = [r.1.text ++ r.2.rest] := by
      refine Text.splitWith_none fun c hc => beq_false_of_ne ?_
      rcases List.mem_append.mp hc with hc | hc
      · exact fun h => (hrows r List.mem_cons_self).single (h ▸ hc)
      · exact (r.2.rest_blank c hc).2
    have hsplit := Text.splitWith_append (· == '\n') (s := '\n') rfl (r.1.text ++ r.2.rest)
      (rows.flatMap (fun r => r.1.text ++ r.2.text) ++ last.text)
    rw [hline, ih fun q hq => hrows q (List.mem_cons_of_mem _ hq)] at hsplit
    rw [List.flatMap_cons, LineEnd.text_eq]
    simpa using hsplit

theorem isLabel_of_label {indent : List Char} (h : ∀ c ∈ indent, Text.isBlank c = true)
    (name : List Char) : isLabel (indent ++ "-----".toList ++ name) = true := by
  have hstart : Text.trimStart (indent ++ "-----".toList ++ name) = "-----".toList ++ name := by
    rw [Text.trimStart, List.append_assoc, List.dropWhile_append_of_pos h]
    rfl
  rw [isLabel, hstart, List.isPrefixOf_iff_prefix]
  exact List.prefix_append _ _

/-- A label has a dash. -/
theorem dash_of_isLabel {line : List Char} (h : isLabel line = true) : '-' ∈ line := by
  obtain ⟨rest, hrest⟩ := List.isPrefixOf_iff_prefix.mp h
  refine (List.dropWhile_suffix Text.isBlank).subset ?_
  rw [← Text.trimStart, ← hrest]
  exact List.mem_append_left _ (by decide)

/-- No symbol is a dash. -/
theorem dash_not_written (bs : Bytes) : '-' ∉ (Base64.encode bs).toList := by
  have hsymbol : ∀ n < 64, Base64.Alphabet.standard.symbol n ≠ '-' := by decide
  intro h
  rw [Base64.encode, String.toList_ofList] at h
  rcases Base64.mem_symbols _ _ bs h with hpad | ⟨n, hn, hdash⟩
  · exact absurd hpad (by decide)
  · exact hsymbol n hn hdash.symm

/-- What is left of a line that ends in some way. -/
def keyPart (line : List Char) : List Char :=
  if isLabel line then [] else line.filter fun c => !Text.isBlank c

theorem keyText_eq (pem : String) :
    keyText pem = (Text.splitWith (· == '\n') pem.toList).flatMap keyPart := by
  unfold keyText
  induction Text.splitWith (· == '\n') pem.toList with
  | nil => rfl
  | cons line lines ih =>
    rw [List.filter_cons, List.flatMap_cons, ← ih, keyPart]
    cases isLabel line <;> rfl

/-- A line that is sound and has no dash among its symbols adds its symbols, however it ends. -/
theorem keyPart_row {r : Row} (h : r.Sound) (hdash : '-' ∉ r.symbols) {rest : List Char}
    (hrest : ∀ c ∈ rest, Text.isBlank c = true) : keyPart (r.text ++ rest) = r.symbols := by
  have hnone : rest.filter (fun c => !Text.isBlank c) = [] :=
    List.filter_eq_nil_iff.mpr fun c hc => by simp [hrest c hc]
  cases r with
  | label indent name =>
    rw [keyPart, Row.text, List.append_assoc, isLabel_of_label fun c hc => (h.1 c hc).1]
    rfl
  | data line =>
    have hlabel : isLabel (line ++ rest) = false := by
      refine Bool.eq_false_iff.mpr fun hl => hdash ?_
      have hm : '-' ∈ (line ++ rest).filter fun c => !Text.isBlank c :=
        List.mem_filter.mpr ⟨dash_of_isLabel hl, by decide⟩
      rwa [List.filter_append, hnone, List.append_nil] at hm
    rw [keyPart, Row.text, hlabel, List.filter_append, hnone, List.append_nil]
    rfl

/-- The symbols of a text are those of its lines. -/
theorem keyText_layout {rows : List (Row × LineEnd)} {last : Row}
    (hrows : ∀ r ∈ rows, r.1.Sound) (hlast : last.Sound)
    (hdash : '-' ∉ rows.flatMap (·.1.symbols) ++ last.symbols) :
    keyText (layout rows last) = rows.flatMap (·.1.symbols) ++ last.symbols := by
  rw [keyText_eq, split_layout hrows hlast, List.flatMap_append, List.flatMap_map]
  congr 1
  · rw [List.flatMap_def, List.flatMap_def]
    refine congrArg List.flatten (List.map_congr_left fun r hr => ?_)
    refine keyPart_row (hrows r hr) (fun hm => hdash ?_) fun c hc => (r.2.rest_blank c hc).1
    exact List.mem_append_left _ (List.mem_flatMap.mpr ⟨r, hr, hm⟩)
  · have hpart : keyPart (last.text ++ []) = last.symbols :=
      keyPart_row hlast (fun hm => hdash (List.mem_append_right _ hm)) (List.forall_mem_nil _)
    rw [List.append_nil] at hpart
    rw [List.flatMap_singleton, hpart]

theorem decode_of_keyText {pem : String} (h : keyText pem ≠ []) :
    decode pem = (Base64.decode (Text.utf8 (String.ofList (keyText pem)))).mapError
      fun e => .encoding e.message := by
  unfold decode
  split
  · rename_i hnone
    exact absurd hnone h
  · rfl

theorem decode_ok {pem : String} {d : Bytes} :
    decode pem = .ok d ↔ keyText pem ≠ [] ∧ keyText pem = (Base64.encode d).toList := by
  by_cases hk : keyText pem = []
  · simp [decode, hk]
  · have hread : decode pem = .ok d ↔
        Base64.decode (Text.utf8 (String.ofList (keyText pem))) = .ok d := by
      rw [decode_of_keyText hk]
      cases Base64.decode (Text.utf8 (String.ofList (keyText pem))) with
      | ok _ => constructor <;> rintro ⟨⟩ <;> rfl
      | error _ => exact ⟨nofun, nofun⟩
    rw [hread, Base64.decode_ok_iff]
    constructor
    · intro h
      rw [← Text.utf8_injective h, String.toList_ofList]
      exact ⟨hk, rfl⟩
    · rintro ⟨-, h⟩
      rw [h, String.ofList_toList]

theorem blank_not_written {bs : Bytes} : ∀ c ∈ (Base64.encode bs).toList, Text.isBlank c = false := by
  have hsymbol : ∀ n < 64, Text.isBlank (Base64.Alphabet.standard.symbol n) = false := by decide
  intro c hc
  rw [Base64.encode, String.toList_ofList] at hc
  rcases Base64.mem_symbols _ _ bs hc with hpad | ⟨n, hn, rfl⟩
  · rw [List.mem_singleton.mp hpad]
    rfl
  · exact hsymbol n hn

/-- The symbols that are written for some bytes are a PEM text by themselves. -/
theorem decode_encode {d : Bytes} (hd : d ≠ []) : decode (Base64.encode d) = .ok d := by
  let row : Row := .data (Base64.encode d).toList
  have hline : row.Sound := fun h => absurd (blank_not_written _ h) (by decide)
  have hsymbols : row.symbols = (Base64.encode d).toList :=
    List.filter_eq_self.mpr fun c hc => by simp [blank_not_written c hc]
  have hkey : keyText (layout [] row) = row.symbols :=
    keyText_layout (List.forall_mem_nil _) hline (by rw [hsymbols]; exact dash_not_written d)
  have hlayout : layout [] row = Base64.encode d := String.ofList_toList
  rw [hlayout, hsymbols] at hkey
  refine decode_ok.mpr ⟨fun hnone => hd (Base64.spelling_eq_nil ?_), hkey⟩
  rw [Base64.spelling, Text.utf8, ← hkey, hnone]
  rfl

/-- A text is decoded to some bytes if and only if its symbols are those that are written for them,
and there are any. So the bytes do not depend on the layout, whatever symbols were written for no
bytes are refused, and the two refusals are told apart by whether there are symbols at all. -/
theorem decode_is_exact :
    (∀ (pem : String) (d : Bytes),
      decode pem = .ok d ↔ keyText pem ≠ [] ∧ keyText pem = (Base64.encode d).toList) ∧
    (∀ (d : Bytes) (rows : List (Row × LineEnd)) (last : Row), d ≠ [] →
      (∀ r ∈ rows, r.1.Sound) → last.Sound →
      rows.flatMap (·.1.symbols) ++ last.symbols = (Base64.encode d).toList →
      decode (layout rows last) = .ok d) ∧
    ∀ (pem : String) (e : CredentialError), decode pem = .error e →
      if keyText pem = [] then e = .invalidKey "PEM contains no key material"
      else ∃ cause : Base64.Error, e = .encoding cause.message := by
  refine ⟨fun pem d => decode_ok, ?_, ?_⟩
  · intro d rows last hd hrows hlast hsymbols
    have hkey := keyText_layout hrows hlast (by rw [hsymbols]; exact dash_not_written d)
    rw [hsymbols] at hkey
    refine decode_ok.mpr ⟨fun hnone => hd (Base64.spelling_eq_nil ?_), hkey⟩
    rw [Base64.spelling, Text.utf8, ← hkey, hnone]
    rfl
  · intro pem e he
    split
    · rename_i hnone
      simp only [decode, hnone, Except.error.injEq] at he
      exact he.symm
    · rename_i hkey
      rw [decode_of_keyText hkey] at he
      cases hread : Base64.decode (Text.utf8 (String.ofList (keyText pem))) with
      | ok d =>
        rw [hread] at he
        cases he
      | error cause =>
        rw [hread] at he
        cases he
        exact ⟨cause, rfl⟩

/-- Both kinds of line end, an indented label and a blank line change nothing; a padding sign less, or
a low bit more in the last symbol, and the text is refused. -/
theorem broken_lines_are_joined :
    let rows (line : String) : List (Row × LineEnd) :=
      [(.label [] "BEGIN RSA PRIVATE KEY-----".toList, .crlf), (.data "\t S G".toList, .lf),
        (.data [], .crlf), (.data line.toList, .crlf)]
    let last : Row := .label [' ', '\u2003'] "END-----".toList
    decode (layout (rows "VsbG8= ") last) = .ok [0x48, 0x65, 0x6C, 0x6C, 0x6F] ∧
      (∀ d, decode (layout (rows "VsbG8 ") last) ≠ .ok d) ∧
      ∀ d, decode (layout (rows "VsbG9= ") last) ≠ .ok d := by
  intro rows last
  have hexact := decode_is_exact.2.1 [0x48, 0x65, 0x6C, 0x6C, 0x6F] (rows "VsbG8= ") last
    (by decide) (by decide) (by decide) (by decide)
  have hshort : (decode (layout (rows "VsbG8 ") last)).toOption = none := by decide +kernel
  have hlow : (decode (layout (rows "VsbG9= ") last)).toOption = none := by decide +kernel
  refine ⟨hexact, fun d h => ?_, fun d h => ?_⟩
  · rw [h] at hshort
    cases hshort
  · rw [h] at hlow
    cases hlow

end SignedConsole.Pem
