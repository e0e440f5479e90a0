import Mathlib.Tactic.IntervalCases
import DocSplice.Diagnostic

/-!
# DocSplice.Proofs.RoundTrip

A diagnostic reads back as it was written, and it is written on one line.

* `Json.Token.Lexer.read_quote`, `Json.Token.Lexer.read_ofNat`: a string and a number that were
  written are read as one token each, whatever the string holds.
* `Diagnostic.tokens`: the words of a diagnostic. `read_render` says that the text is read as these,
  and `ofTokens?_tokens` that they make the object.
* `not_isControl_of_mem_render`: no control character is written.
* `ofText?_render`: the round trip, for every diagnostic and for that of every failure.
-/

namespace DocSplice

/-- The characters that a JSON string must escape, besides the quote and the backslash. -/
def isControl (c : Char) : Bool := decide (c.toNat < 0x20)

namespace Json

theorem hexDigit?_digitChar_all : ∀ n, n < 16 → Token.hexDigit? (Nat.digitChar n) = some n := by
  decide

theorem hexDigit?_hexDigit (n : Nat) : Token.hexDigit? (hexDigit n) = some (n % 16) :=
  hexDigit?_digitChar_all _ (Nat.mod_lt n (by decide))

namespace Token

namespace Lexer

/-- The state behind a text. -/
def read (l : Lexer) (t : Text) : Option Lexer := t.foldlM step l

@[simp] theorem read_nil (l : Lexer) : l.read [] = some l := rfl

theorem read_cons (l : Lexer) (c : Char) (t : Text) :
    l.read (c :: t) = (l.step c).bind fun l => l.read t := rfl

theorem read_append (l : Lexer) (s t : Text) :
    l.read (s ++ t) = (l.read s).bind fun l => l.read t := by
  simp only [read, List.foldlM_append]
  rfl

/-! ## Strings -/

variable {done : List Token}

theorem step_comma : step ⟨done, .between⟩ ',' = some ⟨.comma :: done, .between⟩ := rfl

theorem step_colon : step ⟨done, .between⟩ ':' = some ⟨.colon :: done, .between⟩ := rfl

theorem step_openObject : step ⟨done, .between⟩ '{' = some ⟨.openObject :: done, .between⟩ := rfl

theorem addUnit_of_lt (taken : Text) {n : Nat} (h : n < 0xD800) :
    Quote.addUnit ⟨taken, none, true⟩ n = ⟨Char.ofNat n :: taken, none, true⟩ := by
  rw [Quote.addUnit, if_neg (by omega), if_neg (by omega)]
  rfl

theorem read_hex (taken : Text) (c : Char) (h : c.toNat < 0x20) :
    read ⟨done, .string ⟨taken, none, true⟩⟩
        ['\\', 'u', '0', '0', hexDigit (c.toNat / 16), hexDigit c.toNat] =
      some ⟨done, .string ⟨c :: taken, none, true⟩⟩ := by
  have hunit : 16 * (16 * (16 * (16 * 0 + 0) + 0) + c.toNat / 16 % 16) + c.toNat % 16 =
      c.toNat := by omega
  have hzero : hexDigit? '0' = some 0 := by decide
  have hread : read ⟨done, .string ⟨taken, none, true⟩⟩
      ['\\', 'u', '0', '0', hexDigit (c.toNat / 16), hexDigit c.toNat] =
        some ⟨done, .string (Quote.addUnit ⟨taken, none, true⟩
          (16 * (16 * (16 * (16 * 0 + 0) + 0) + c.toNat / 16 % 16) + c.toNat % 16))⟩ := by
    simp [read, step, hexDigit?_hexDigit, hzero]
  rw [hread, hunit, addUnit_of_lt taken (by omega), Char.ofNat_toNat]

theorem read_escaped (taken : Text) (c : Char) :
    read ⟨done, .string ⟨taken, none, true⟩⟩ (escaped c) =
      some ⟨done, .string ⟨c :: taken, none, true⟩⟩ := by
  unfold escaped
  split
  · next h => subst h; rfl
  split
  · next h => subst h; rfl
  split
  · next h => subst h; rfl
  split
  · next h => subst h; rfl
  split
  · next h => subst h; rfl
  split
  · next h => subst h; rfl
  split
  · next h => subst h; rfl
  split
  · next h => exact read_hex taken c h
  · next hquote hslash _ _ _ _ _ hcontrol =>
    simp [read, step, hquote, hslash, hcontrol, Quote.add]

theorem read_flatMap_escaped (t : Text) : ∀ taken : Text,
    read ⟨done, .string ⟨taken, none, true⟩⟩ (t.flatMap escaped) =
      some ⟨done, .string ⟨t.reverse ++ taken, none, true⟩⟩ := by
  induction t with
  | nil => intro taken; rfl
  | cons c t ih =>
    intro taken
    rw [List.flatMap_cons, read_append, read_escaped]
    simpa using ih (c :: taken)

theorem read_quote (t : Text) :
    read ⟨done, .between⟩ (quote t) = some ⟨.string (some t) :: done, .between⟩ := by
  have hopen : step ⟨done, .between⟩ '"' = some ⟨done, .string {}⟩ := rfl
  have hclose : step ⟨done, .string ⟨t.reverse ++ [], none, true⟩⟩ '"' =
      some ⟨.string (some t) :: done, .between⟩ := by
    simp [step, emit, Quote.value?]
  rw [quote, read_cons, hopen, Option.bind_some, read_append, read_flatMap_escaped,
    Option.bind_some, read_cons, hclose]
  rfl

/-! ## Numbers -/

/-- The digits of a number as they are being read. A leading zero is told apart. -/
def numeral (n : Nat) : Numeral := if n = 0 then .zero (some 0) else .digits (some n)

theorem digit?_digitChar_all : ∀ n, n < 10 → digit? (Nat.digitChar n) = some n := by
  decide

theorem step_digitChar {n : Nat} (h : n < 10) :
    step ⟨done, .between⟩ (Nat.digitChar n) = some ⟨done, .numeral (numeral n)⟩ := by
  interval_cases n <;> rfl

/-- The digits of a number are read to its value. -/
theorem read_ofNat (n : Nat) :
    read ⟨done, .between⟩ (Text.ofNat n) = some ⟨done, .numeral (numeral n)⟩ := by
  induction n using Nat.strongRecOn with
  | ind n ih =>
    rw [Text.ofNat]
    by_cases h : n < 10
    · rw [Nat.toDigits_of_lt_base h, read_cons, step_digitChar h]
      rfl
    · have hsplit : Nat.toDigits 10 n = Text.ofNat (n / 10) ++ [Nat.digitChar (n % 10)] := by
        have hdigits := Nat.toDigits_append_toDigits (b := 10) (n := n / 10) (d := n % 10)
          (by decide) (by omega) (by omega)
        rw [Nat.toDigits_of_lt_base (Nat.mod_lt n (by decide)), Nat.div_add_mod] at hdigits
        exact hdigits.symm
      have hnext : step ⟨done, .numeral (numeral (n / 10))⟩ (Nat.digitChar (n % 10)) =
          some ⟨done, .numeral (numeral n)⟩ := by
        have hvalue : 10 * (n / 10) + n % 10 = n := Nat.div_add_mod n 10
        have hpos : ¬ n / 10 = 0 := by omega
        have hpos' : ¬ n = 0 := by omega
        simp [step, numeral, hpos, hpos', Numeral.step?,
          digit?_digitChar_all _ (Nat.mod_lt n (by decide)), hvalue]
      rw [hsplit, read_append, ih (n / 10) (by omega), Option.bind_some, read_cons, hnext]
      rfl

/-- A comma or a closing brace ends a number. -/
theorem step_numeral (n : Nat) {c : Char} (hc : c = ',' ∨ c = '}') :
    step ⟨done, .numeral (numeral n)⟩ c = step ⟨.number (some n) :: done, .between⟩ c := by
  rcases hc with rfl | rfl <;> by_cases h : n = 0 <;> simp [step, numeral, h] <;> rfl

end Lexer
end Token
end Json

namespace Diagnostic

open Json Json.Token

/-! ## A diagnostic is read as its words -/

/-- The words of a member that holds a number, if it is there. -/
def countTokens (name : Text) : Option Nat → List Token
  | some n => [.comma, .string (some name), .colon, .number (some n)]
  | none => []

/-- The words of a diagnostic. -/
def tokens (d : Diagnostic) : List Token :=
  [.openObject, .string (some "kind".toList), .colon, .string (some d.kind.label), .comma,
    .string (some "message".toList), .colon, .string (some d.message)] ++
    countTokens "line".toList d.line ++ countTokens "column".toList d.column ++ [.closeObject]

theorem read_renderCount (done : List Token) (name : Text) (count : Option Nat) {c : Char}
    (hc : c = ',' ∨ c = '}') (t : Text) :
    Lexer.read ⟨done, .between⟩ (renderCount name count ++ c :: t) =
      Lexer.read ⟨(countTokens name count).reverse ++ done, .between⟩ (c :: t) := by
  cases count with
  | none => rfl
  | some n =>
    simp only [renderCount, List.cons_append, List.append_assoc, Lexer.read_cons, Lexer.step_comma,
      Option.bind_some, Lexer.read_append, Lexer.read_quote, Lexer.step_colon, Lexer.read_ofNat,
      Lexer.step_numeral n hc]
    rfl

/-- The text behind a count begins with a comma or a closing brace. -/
theorem head_renderCount (name : Text) (count : Option Nat) :
    ∃ c t, (c = ',' ∨ c = '}') ∧ renderCount name count ++ ['}'] = c :: t := by
  cases count with
  | none => exact ⟨'}', [], .inr rfl, rfl⟩
  | some n => exact ⟨',', _, .inl rfl, rfl⟩

theorem read_render (d : Diagnostic) :
    Lexer.read {} d.render = some ⟨d.tokens.reverse, .between⟩ := by
  have hhead : Lexer.read {} ('{' :: quote "kind".toList ++ ':' :: quote d.kind.label ++
      ',' :: quote "message".toList ++ ':' :: quote d.message) =
      some ⟨[.string (some d.message), .colon, .string (some "message".toList), .comma,
        .string (some d.kind.label), .colon, .string (some "kind".toList), .openObject],
        .between⟩ := by
    simp only [Lexer.read_append, Lexer.read_cons, Lexer.step_openObject, Lexer.step_colon,
      Lexer.step_comma, Lexer.read_quote, Option.bind_some]
  have hclose (done : List Token) :
      Lexer.read ⟨done, .between⟩ ['}'] = some ⟨.closeObject :: done, .between⟩ := rfl
  obtain ⟨c, t, hc, ht⟩ := head_renderCount "column".toList d.column
  have hcolumn (done : List Token) : Lexer.read ⟨done, .between⟩ (c :: t) =
      some ⟨.closeObject :: ((countTokens "column".toList d.column).reverse ++ done), .between⟩ := by
    rw [← ht, read_renderCount done _ _ (.inr rfl), hclose]
  rw [render, List.append_assoc _ _ ['}'], ht, List.append_assoc, Lexer.read_append, hhead,
    Option.bind_some, read_renderCount _ _ _ hc, hcolumn]
  simp [tokens]

theorem ofText?_render_tokens (d : Diagnostic) : Token.ofText? d.render = some d.tokens := by
  have hread : d.render.foldlM Lexer.step {} = some ⟨d.tokens.reverse, .between⟩ := read_render d
  rw [Token.ofText?, hread]
  simp [Lexer.finish]

/-! ## The words make the object -/

/-- The member that holds a number, if it is there. -/
def countMember (name : Text) : Option Nat → List (Option Text × Value)
  | some n => [(some name, .number (some n))]
  | none => []

/-- The members of a diagnostic in the object that it makes. -/
def members (d : Diagnostic) : List (Option Text × Value) :=
  [(some "kind".toList, .string (some d.kind.label)),
    (some "message".toList, .string (some d.message))] ++
    (countMember "line".toList d.line ++ countMember "column".toList d.column)

theorem ofTokens?_tokens (d : Diagnostic) : Value.ofTokens? d.tokens = some (.object d.members) := by
  obtain ⟨kind, message, line, column⟩ := d
  cases line <;> cases column <;> rfl

theorem take_kind (m : Members) (h : m.kind = none) (kind : Failure.Kind) :
    m.take (some "kind".toList, .string (some kind.label)) = some { m with kind := some kind } := by
  simp [Members.take, fill, h, kindOf?]

theorem take_message (m : Members) (h : m.message = none) (message : Text) :
    m.take (some "message".toList, .string (some message)) =
      some { m with message := some message } := by
  simp [Members.take, fill, h, messageOf?]

theorem foldlM_take_line (m : Members) (h : m.line = none) {line : Option Nat}
    (hline : ∀ n ∈ line, n < countBound) :
    (countMember "line".toList line).foldlM Members.take m =
      some { m with line := line.map some } := by
  cases line with
  | none => simp [countMember, ← h]
  | some n => simp [countMember, Members.take, fill, h, countOf?, hline n rfl]

theorem foldlM_take_column (m : Members) (h : m.column = none) {column : Option Nat}
    (hcolumn : ∀ n ∈ column, n < countBound) :
    (countMember "column".toList column).foldlM Members.take m =
      some { m with column := column.map some } := by
  cases column with
  | none => simp [countMember, ← h]
  | some n => simp [countMember, Members.take, fill, h, countOf?, hcolumn n rfl]

theorem ofValue?_members (d : Diagnostic) (hline : ∀ n ∈ d.line, n < countBound)
    (hcolumn : ∀ n ∈ d.column, n < countBound) : ofValue? (.object d.members) = some d := by
  have htake : d.members.foldlM Members.take {} =
      some ⟨some d.kind, some d.message, d.line.map some, d.column.map some⟩ := by
    simp only [members, List.foldlM_append, List.foldlM_cons, List.foldlM_nil, take_kind {} rfl,
      take_message, Option.bind_eq_bind, Option.bind_some, Option.pure_def]
    rw [foldlM_take_line ⟨d.kind, d.message, none, none⟩ rfl hline, Option.bind_some,
      foldlM_take_column ⟨d.kind, d.message, d.line.map some, none⟩ rfl hcolumn]
  have hjoin (count : Option Nat) : (count.map some).join = count := by
    cases count <;> rfl
  rw [ofValue?, htake, Option.bind_some, Members.diagnostic?, hjoin, hjoin]

/-! ## The text stands on one line -/

theorem not_isControl_of_mem_ofNat {n : Nat} {c : Char} (h : c ∈ Text.ofNat n) :
    isControl c = false := by
  have hdigit := Nat.isDigit_of_mem_toDigits (by decide) (by decide) h
  rw [Char.isDigit, Bool.and_eq_true, decide_eq_true_eq] at hdigit
  have hle : 0x30 ≤ c.toNat := hdigit.1
  simp only [isControl, decide_eq_false_iff_not]
  omega

theorem not_isControl_escaped_all :
    ∀ n, n < 0x20 → ((escaped (Char.ofNat n)).all (!isControl ·)) = true := by
  decide

theorem escaped_of_not_isControl {c : Char} (h : isControl c = false) :
    escaped c = if c = '"' then ['\\', '"'] else if c = '\\' then ['\\', '\\'] else [c] := by
  have hne : ∀ d : Char, isControl d = true → c ≠ d := by
    rintro d hd rfl
    rw [h] at hd
    cases hd
  have hcontrol : ¬ c.toNat < 0x20 := by simpa [isControl] using h
  simp only [escaped, hne '\x08' rfl, hne '\t' rfl, hne '\n' rfl, hne '\x0c' rfl, hne '\r' rfl,
    hcontrol, if_false]

theorem not_isControl_of_mem_escaped {c e : Char} (h : e ∈ escaped c) : isControl e = false := by
  cases hc : isControl c with
  | true =>
    rw [← Char.ofNat_toNat c] at h
    have hall := not_isControl_escaped_all c.toNat (by simpa [isControl] using hc)
    simpa using List.all_eq_true.mp hall e h
  | false =>
    rw [escaped_of_not_isControl hc] at h
    split at h
    · have hall : ['\\', '"'].all (!isControl ·) = true := rfl
      simpa using List.all_eq_true.mp hall e h
    split at h
    · have hall : ['\\', '\\'].all (!isControl ·) = true := rfl
      simpa using List.all_eq_true.mp hall e h
    · rwa [List.mem_singleton.mp h]

theorem not_isControl_of_mem_quote {t : Text} {c : Char} (h : c ∈ quote t) :
    isControl c = false := by
  simp only [quote, List.mem_cons, List.mem_append, List.mem_flatMap, List.not_mem_nil,
    or_false] at h
  rcases h with rfl | ⟨d, -, hd⟩ | rfl
  · rfl
  · exact not_isControl_of_mem_escaped hd
  · rfl

theorem not_isControl_of_mem_renderCount {name : Text} {count : Option Nat} {c : Char}
    (h : c ∈ renderCount name count) : isControl c = false := by
  cases count with
  | none => cases h
  | some n =>
    simp only [renderCount, List.cons_append, List.mem_cons, List.mem_append] at h
    rcases h with rfl | h | rfl | h
    · rfl
    · exact not_isControl_of_mem_quote h
    · rfl
    · exact not_isControl_of_mem_ofNat h

theorem not_isControl_of_mem_render {d : Diagnostic} {c : Char} (h : c ∈ d.render) :
    isControl c = false := by
  simp only [render, List.cons_append, List.append_assoc, List.mem_cons, List.mem_append,
    List.not_mem_nil, or_false] at h
  rcases h with rfl | h | rfl | h | rfl | h | rfl | h | h | h | rfl
  · rfl
  · exact not_isControl_of_mem_quote h
  · rfl
  · exact not_isControl_of_mem_quote h
  · rfl
  · exact not_isControl_of_mem_quote h
  · rfl
  · exact not_isControl_of_mem_quote h
  · exact not_isControl_of_mem_renderCount h
  · exact not_isControl_of_mem_renderCount h
  · rfl

theorem ofText?_render_of_lt {d : Diagnostic} (hline : ∀ n ∈ d.line, n < countBound)
    (hcolumn : ∀ n ∈ d.column, n < countBound) : ofText? d.render = some d := by
  rw [ofText?, Value.ofText?, ofText?_render_tokens, Option.bind_some, ofTokens?_tokens,
    Option.bind_some, ofValue?_members d hline hcolumn]

end Diagnostic

theorem Failure.line_diagnostic_of_io {f : Failure} (h : f.kind = .io) :
    f.diagnostic.line = none ∧ f.diagnostic.column = none := by
  cases f with
  | unreadable path reason => exact ⟨rfl, rfl⟩
  | _ => cases h

theorem Failure.exists_position_of_not_io {f : Failure} (h : f.kind ≠ .io) :
    ∃ p, f.position? = some p ∧ f.diagnostic.line = some p.line ∧
      f.diagnostic.column = some p.column := by
  cases f with
  | unreadable path reason => exact absurd rfl h
  | _ => exact ⟨_, rfl, rfl, rfl⟩

theorem Failure.diagnostic_lt {f : Failure}
    (h : ∀ p ∈ f.position?, p.line < Diagnostic.countBound ∧ p.column < Diagnostic.countBound) :
    (∀ n ∈ f.diagnostic.line, n < Diagnostic.countBound) ∧
      ∀ n ∈ f.diagnostic.column, n < Diagnostic.countBound := by
  constructor
  · intro n hn
    obtain ⟨p, hp, rfl⟩ := Option.mem_map.mp hn
    exact (h p hp).1
  · intro n hn
    obtain ⟨p, hp, rfl⟩ := Option.mem_map.mp hn
    exact (h p hp).2

/-- **A diagnostic reads back as it was written,** whatever its message holds, and it is written
without control characters, so on one line. This holds for the diagnostic of every failure, which has
a line and a column unless a file could not be read, and then those of the failure. -/
theorem ofText?_render :
    (∀ d : Diagnostic, (∀ n ∈ d.line, n < Diagnostic.countBound) →
      (∀ n ∈ d.column, n < Diagnostic.countBound) →
      Diagnostic.ofText? d.render = some d ∧ ∀ c ∈ d.render, 0x20 ≤ c.toNat) ∧
    ∀ f : Failure,
      (∀ p ∈ f.position?, p.line < Diagnostic.countBound ∧ p.column < Diagnostic.countBound) →
      (Diagnostic.ofText? f.diagnostic.render = some f.diagnostic ∧
        ∀ c ∈ f.diagnostic.render, 0x20 ≤ c.toNat) ∧
      (f.kind = .io → f.diagnostic.line = none ∧ f.diagnostic.column = none) ∧
      (f.kind ≠ .io → ∃ p, f.position? = some p ∧ f.diagnostic.line = some p.line ∧
        f.diagnostic.column = some p.column) := by
  have hround : ∀ d : Diagnostic, (∀ n ∈ d.line, n < Diagnostic.countBound) →
      (∀ n ∈ d.column, n < Diagnostic.countBound) →
      Diagnostic.ofText? d.render = some d ∧ ∀ c ∈ d.render, 0x20 ≤ c.toNat := by
    intro d hline hcolumn
    refine ⟨Diagnostic.ofText?_render_of_lt hline hcolumn, ?_⟩
    intro c hc
    simpa [isControl] using Diagnostic.not_isControl_of_mem_render hc
  refine ⟨hround, ?_⟩
  intro f hf
  obtain ⟨hline, hcolumn⟩ := Failure.diagnostic_lt hf
  exact ⟨hround f.diagnostic hline hcolumn, Failure.line_diagnostic_of_io,
    Failure.exists_position_of_not_io⟩

theorem ofText?_render_escapes :
    let d : Diagnostic := ⟨.io, ['"', '\\', '\x01', '\n', 'é'], some 4294967295, none⟩
    let f : Failure := .undefinedVariable ['x'] ⟨2, 10⟩
    (∀ n ∈ d.line, n < Diagnostic.countBound) ∧ (∀ n ∈ d.column, n < Diagnostic.countBound) ∧
      (∀ p ∈ f.position?, p.line < Diagnostic.countBound ∧ p.column < Diagnostic.countBound) ∧
      f.kind ≠ .io ∧ Diagnostic.ofText? d.render = some d ∧
      Diagnostic.ofText? f.diagnostic.render = some f.diagnostic ∧
      ∃ p, f.position? = some p ∧ f.diagnostic.line = some p.line ∧
        f.diagnostic.column = some p.column := by
  intro d f
  have hline : ∀ n ∈ d.line, n < Diagnostic.countBound := by
    intro n hn
    obtain rfl : 4294967295 = n := Option.some.inj hn
    decide
  have hcolumn : ∀ n ∈ d.column, n < Diagnostic.countBound := nofun
  have hf : ∀ p ∈ f.position?,
      p.line < Diagnostic.countBound ∧ p.column < Diagnostic.countBound := by
    intro p hp
    obtain rfl : ⟨2, 10⟩ = p := Option.some.inj hp
    decide
  have hkind : f.kind ≠ .io := by decide
  obtain ⟨hround, -, hposition⟩ := ofText?_render.2 f hf
  exact ⟨hline, hcolumn, hf, hkind, (ofText?_render.1 d hline hcolumn).1, hround.1,
    hposition hkind⟩

end DocSplice
