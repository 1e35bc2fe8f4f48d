import BoundedCache.Config
import BoundedCache.Proofs.Decimal.Text
import BoundedCache.Proofs.Text.Utf8
import BoundedCache.Proofs.Text.WhiteSpace
import Mathlib.Data.List.Induction
import Mathlib.Data.Nat.Digits.Defs

namespace BoundedCache

/-!
# What a variable stands for

`Denotes limit value n` is the grammar of the variables: UTF-8 text that is made of white space, one
plus sign or none, decimal digits with the value `n`, and white space.

* `readDigits?_eq_some_iff` — the digits are read one by one, and reading stops as soon as a limit
  is passed; since more digits make a number no smaller, no number is lost by that and none comes
  round.
* `variableValue?_eq_some_iff` — so a variable is read as `n` iff it denotes `n`.
* `Config.fields_by_grammar` — every field of a configuration is what its own variable denotes, or
  else its default.
-/

/-- The decimal value of digits, the last of which counts once and every other one ten times as
    much as the one behind it. -/
def decimalValue (digits : List Char) : Nat :=
  Nat.ofDigits 10 (digits.reverse.map digitValue)

/-- The texts of a number: an optional plus sign and decimal digits, at least one, with any white
    space around them. -/
def Spells (text : List Char) (n : Nat) : Prop :=
  ∃ before sign digits after, text = before ++ (sign ++ digits) ++ after
    ∧ (∀ c ∈ before, Text.isWhiteSpace c = true) ∧ (∀ c ∈ after, Text.isWhiteSpace c = true)
    ∧ (sign = [] ∨ sign = ['+'])
    ∧ digits ≠ [] ∧ (∀ c ∈ digits, c.isDigit = true) ∧ decimalValue digits = n

/-- **The grammar of a variable**: its value is the encoding of a text of the number, and the number
    is not beyond the limit. -/
def Denotes (limit : Nat) (value : Bytes) (n : Nat) : Prop :=
  ∃ text, value = encodeUtf8 text ∧ Spells text.toList n ∧ n ≤ limit

/-! ### Digits -/

/-- Digits spell their decimal value. -/
theorem spell_eq_decimalValue (digits : List Char) :
    spell 0 (digits.map digitValue) = decimalValue digits := by
  induction digits using List.reverseRecOn with
  | nil => rfl
  | append_singleton digits c ih =>
    rw [decimalValue, List.reverse_concat, List.map_cons, Nat.ofDigits_cons, ← decimalValue, ← ih]
    simp only [spell, List.map_append, List.map_cons, List.map_nil, List.foldl_append,
      List.foldl_cons, List.foldl_nil]
    omega

/-- Both checks of a step come to one: the number with the next digit is within the limit. -/
theorem readDigits?_cons (limit n : Nat) (c : Char) (digits : List Char) :
    readDigits? limit n (c :: digits)
      = if c.isDigit = true ∧ n * 10 + digitValue c ≤ limit then
          readDigits? limit (n * 10 + digitValue c) digits
        else none := by
  rw [readDigits?, digitValue?]
  by_cases hdigit : c.isDigit = true
  · by_cases hfits : n * 10 + digitValue c ≤ limit
    · have htens : n * 10 ≤ limit := by omega
      simp [within?, hdigit, hfits, htens]
    · -- The tens alone may still be within the limit.
      by_cases htens : n * 10 ≤ limit <;> simp [within?, hdigit, hfits, htens]
  · simp [hdigit]

/-- **The loop over the digits** finds the number that they spell iff it is within the limit. -/
theorem readDigits?_eq_some_iff {limit n m : Nat} {digits : List Char} (hn : n ≤ limit) :
    readDigits? limit n digits = some m ↔ (∀ c ∈ digits, c.isDigit = true)
      ∧ spell n (digits.map digitValue) = m ∧ m ≤ limit := by
  induction digits generalizing n with
  | nil =>
    rw [readDigits?, Option.some.injEq]
    constructor
    · rintro rfl
      exact ⟨List.forall_mem_nil _, rfl, hn⟩
    · exact fun h => h.2.1
  | cons c digits ih =>
    rw [readDigits?_cons, List.map_cons, spell_cons, List.forall_mem_cons]
    split
    · next hstep =>
      rw [ih hstep.2]
      simp only [hstep.1, true_and]
    · next hstep =>
      refine iff_of_false (fun h => by cases h) ?_
      rintro ⟨⟨hdigit, -⟩, rfl, hfits⟩
      -- What is beyond the limit now stays there.
      exact hstep ⟨hdigit, Nat.le_trans (le_spell _ _) hfits⟩

theorem digitsValue?_eq_some_iff {limit n : Nat} {digits : List Char} :
    digitsValue? limit digits = some n ↔ digits ≠ [] ∧ (∀ c ∈ digits, c.isDigit = true)
      ∧ decimalValue digits = n ∧ n ≤ limit := by
  rw [digitsValue?, ← spell_eq_decimalValue]
  split
  · next hnil => exact iff_of_false (fun h => by cases h) fun h => h.1 hnil
  · next hne =>
    rw [readDigits?_eq_some_iff (Nat.zero_le _)]
    exact ⟨fun h => ⟨hne, h⟩, fun h => h.2⟩

/-! ### Texts -/

theorem not_white_of_isDigit {c : Char} (hc : c.isDigit = true) :
    Text.isWhiteSpace c = false := by
  have hrange : 48 ≤ c.toNat ∧ c.toNat ≤ 57 := by
    simp only [Char.isDigit, Bool.and_eq_true, decide_eq_true_eq] at hc
    exact ⟨hc.1, hc.2⟩
  simp only [Text.isWhiteSpace, Bool.or_eq_false_iff, Bool.and_eq_false_imp, decide_eq_true_eq,
    decide_eq_false_iff_not, beq_eq_false_iff_ne]
  omega

/-- Neither the sign nor the digits are white space. -/
theorem not_white_of_mem {sign digits : List Char} (hsign : sign = [] ∨ sign = ['+'])
    (hdigits : ∀ c ∈ digits, c.isDigit = true) :
    ∀ c ∈ sign ++ digits, Text.isWhiteSpace c = false := by
  intro c hc
  rcases List.mem_append.1 hc with hc | hc
  · rcases hsign with rfl | rfl
    · cases hc
    · obtain rfl := List.mem_singleton.1 hc
      decide
  · exact not_white_of_isDigit (hdigits c hc)

theorem variableNumber?_eq_some_iff {limit n : Nat} {text : String} :
    variableNumber? limit text = some n ↔ Spells text.toList n ∧ n ≤ limit := by
  constructor
  · intro h
    obtain ⟨before, after, htext, hbefore, hafter⟩ := Text.exists_eq_trim text.toList
    rw [variableNumber?] at h
    split at h
    · next digits htrim =>
      obtain ⟨hne, hdigits, hvalue, hn⟩ := digitsValue?_eq_some_iff.1 h
      rw [htrim] at htext
      exact ⟨⟨before, ['+'], digits, after, htext, hbefore, hafter, .inr rfl, hne, hdigits, hvalue⟩,
        hn⟩
    · obtain ⟨hne, hdigits, hvalue, hn⟩ := digitsValue?_eq_some_iff.1 h
      exact ⟨⟨before, [], _, after, htext, hbefore, hafter, .inl rfl, hne, hdigits, hvalue⟩, hn⟩
  · rintro ⟨⟨before, sign, digits, after, htext, hbefore, hafter, hsign, hne, hdigits, hvalue⟩, hn⟩
    have htrim : Text.trim text.toList = sign ++ digits := by
      rw [htext]
      refine Text.trim_between hbefore hafter ?_ (not_white_of_mem hsign hdigits)
      exact fun hnil => hne (List.append_eq_nil_iff.1 hnil).2
    have hread := digitsValue?_eq_some_iff.2 ⟨hne, hdigits, hvalue, hn⟩
    rw [variableNumber?, htrim]
    rcases hsign with rfl | rfl
    · -- Without a sign, the first digit must not be taken for one.
      rw [List.nil_append]
      split
      · next rest =>
        have hplus := hdigits '+' List.mem_cons_self
        exact absurd hplus (by decide)
      · exact hread
    · exact hread

/-- **Reading accepts exactly the grammar.** -/
theorem variableValue?_eq_some_iff {limit n : Nat} {value : Bytes} :
    variableValue? limit value = some n ↔ Denotes limit value n := by
  simp only [variableValue?, Option.bind_eq_some_iff, decodeUtf8?_eq_some_iff,
    variableNumber?_eq_some_iff, Denotes]

/-! ### Fields -/

namespace Config

/-- The variables that a configuration is read from, named for their fields. -/
inductive Variable
  | maxSizeMb
  | defaultTtl
  | serverPort
  | sweepInterval

namespace Variable

/-- The name of a variable in the environment. -/
def name : Variable → String
  | maxSizeMb => "MAX_SIZE_MB"
  | defaultTtl => "DEFAULT_TTL"
  | serverPort => "SERVER_PORT"
  | sweepInterval => "SWEEP_INTERVAL"

/-- The largest number that a variable may denote. -/
def limit : Variable → Nat
  | serverPort => 65535
  | _ => Word.top

/-- The default of the field of a variable. -/
def standard : Variable → Nat
  | maxSizeMb => 50
  | defaultTtl => 300
  | serverPort => 3000
  | sweepInterval => 60

/-- The field of a variable. -/
def field (config : Config) : Variable → Nat
  | maxSizeMb => config.maxSizeMb
  | defaultTtl => config.defaultTtl
  | serverPort => config.serverPort
  | sweepInterval => config.sweepInterval

end Variable

/-- A field depends on the value of its own variable only. -/
theorem field_ofEnvironment (environment : String → Option Bytes) (source : Variable) :
    source.field (ofEnvironment environment)
      = ((environment source.name).bind (variableValue? source.limit)).getD source.standard := by
  cases source <;> rfl

/-- **The environment is read by its grammar, field by field.**  A field is the number that its
    variable denotes, and it has its default if the variable is not set or denotes no number within
    its limit.  The other variables have no part in it. -/
theorem fields_by_grammar (environment : String → Option Bytes) (source : Variable) :
    let field := source.field (ofEnvironment environment)
    (∀ value n, environment source.name = some value → Denotes source.limit value n → field = n)
      ∧ ((∀ value n, environment source.name = some value → ¬ Denotes source.limit value n) →
        field = source.standard)
      ∧ ∀ other : String → Option Bytes, other source.name = environment source.name →
        source.field (ofEnvironment other) = field := by
  intro field
  have hfield : field = _ := field_ofEnvironment environment source
  refine ⟨fun value n hvalue hdenotes => ?_, fun hnone => ?_, fun other hother => ?_⟩
  · rw [hfield, hvalue, Option.bind_some, variableValue?_eq_some_iff.2 hdenotes, Option.getD_some]
  · have hread : (environment source.name).bind (variableValue? source.limit) = none := by
      rw [Option.bind_eq_none_iff]
      intro value hvalue
      rw [Option.eq_none_iff_forall_ne_some]
      exact fun n hn => hnone value n hvalue (variableValue?_eq_some_iff.1 hn)
    rw [hfield, hread, Option.getD_none]
  · rw [hfield, field_ofEnvironment, hother]

/-- The largest budget, with a plus sign, leading zeros and wide blanks, is read; a port that is one
    too large is as good as none, whatever the other variables are. -/
theorem fields_by_grammar_at_the_limits :
    let budget := encodeUtf8 "\u3000+0018446744073709551615\u2003"
    let port := encodeUtf8 "65536"
    let environment (name : String) : Option Bytes :=
      if name = "MAX_SIZE_MB" then some budget else if name = "SERVER_PORT" then some port else none
    let other (name : String) : Option Bytes := if name = "SERVER_PORT" then some port else none
    Denotes Word.top budget Word.top ∧ (ofEnvironment environment).maxSizeMb = Word.top
      ∧ (∀ n, ¬ Denotes 65535 port n) ∧ (ofEnvironment environment).serverPort = 3000
      ∧ (ofEnvironment other).serverPort = 3000 := by
  intro budget port environment other
  have hbudget : Denotes Word.top budget Word.top := by
    rw [← variableValue?_eq_some_iff, variableValue?, decodeUtf8?_encodeUtf8]
    decide +kernel
  have hport : ∀ n, ¬ Denotes 65535 port n := by
    intro n
    have hread : variableNumber? 65535 "65536" = none := by decide +kernel
    rw [← variableValue?_eq_some_iff, variableValue?, decodeUtf8?_encodeUtf8, Option.bind_some,
      hread]
    exact (Option.some_ne_none n).symm
  have hnone : ∀ value n, environment "SERVER_PORT" = some value → ¬ Denotes 65535 value n := by
    intro value n hvalue
    rw [← Option.some.inj (show some port = some value from hvalue)]
    exact hport n
  have hstandard := (fields_by_grammar environment .serverPort).2.1 hnone
  exact ⟨hbudget, (fields_by_grammar environment .maxSizeMb).1 budget _ rfl hbudget, hport,
    hstandard, ((fields_by_grammar environment .serverPort).2.2 other rfl).trans hstandard⟩

end Config

end BoundedCache
