import Xref.Json.Writer
import Xref.Proofs.JsonGrammar
import Xref.Proofs.Words

/-!
# What is written is read

The three forms in which objects are written are texts of the same value, so each is read back
whole. They differ in white space alone.
-/

namespace Xref.Json

def Scalar.json : Scalar → Json
  | .text value => .string (some value)
  | .natural n => .number (toString n)

def objectOf (members : Members) : Json := .object (members.map fun m => (some m.1, m.2.json))

/-- Tokens, and a text that spells them in front of whatever no token runs into. -/
def Leads (ts : List Token) (cs : List Char) : Prop :=
  ∀ us ds, Ends ds → Spells us ds → Spells (ts ++ us) (cs ++ ds)

def Blanks (cs : List Char) : Prop := ∀ c ∈ cs, isBlank c = true

section
variable {ts : List Token} {cs space feed lead gap close : List Char}

theorem Leads.spells (h : Leads ts cs) : Spells ts cs := by
  simpa using h [] [] ends_nil .nil

theorem Spells.blanks (hb : Blanks space) (h : Spells ts cs) : Spells ts (space ++ cs) := by
  induction space with
  | nil => exact h
  | cons c space ih =>
    obtain ⟨hc, hb⟩ := List.forall_mem_cons.mp hb
    exact .blank hc (ih hb)

theorem ends_blanks (hb : Blanks space) (h : Ends cs) : Ends (space ++ cs) := by
  cases space with
  | nil => exact h
  | cons c space =>
    have hc := hb c List.mem_cons_self
    simp only [isBlank, Bool.or_eq_true, decide_eq_true_eq] at hc
    obtain ((rfl | rfl) | rfl) | rfl := hc
    all_goals
      exact ends_cons (by decide)

-- ---------------------------------------------------------------------------
-- Strings and numbers
-- ---------------------------------------------------------------------------

theorem quoting_escapeChar {text : List Char} (c : Char) (h : Quoting text cs) :
    Quoting (c :: text) (escapeChar c ++ cs) := by
  have hu : ∀ n < 32, unit? ['0', '0', hexDigit (n / 16), hexDigit (n % 16)] = some n := by decide
  unfold escapeChar
  split
  case h_8 hq he _ _ _ _ _ =>
    split
    · next hc =>
      have hn : units c = [c.toNat] := if_pos (Nat.lt_trans hc (by decide))
      exact .coded [['0', '0', _, _]] (by rw [hn]; simp [hu _ hc]) h
    · next hc => exact .plain ⟨hq, he, Nat.not_lt.mp hc⟩ h
  all_goals
    exact .escape rfl h

theorem quoting_escaped (text : List Char) : Quoting text (text.flatMap escapeChar) := by
  induction text with
  | nil => exact .nil
  | cons c text ih => exact quoting_escapeChar c ih

theorem Spells.quote (name : String) (h : Spells ts cs) :
    Spells (.string (some name) :: ts) ((quote name).toList ++ cs) := by
  simpa [Json.quote] using Spells.string (quoting_escaped name.toList) h

theorem leads_write (value : Scalar) : Leads value.json.tokens value.write.toList := by
  intro us ds he h
  cases value with
  | text value => exact h.quote value
  | natural n =>
    have hn : numeral false n = toString n := String.empty_append
    have hs := Spells.number false n he h
    rwa [hn] at hs

-- ---------------------------------------------------------------------------
-- Objects and lists
-- ---------------------------------------------------------------------------

theorem eachTokens_eq (items : List Json) : eachTokens items = items.map tokens := by
  induction items with
  | nil => rfl
  | cons item rest ih => rw [eachTokens, ih, List.map_cons]

theorem memberTokens_eq (members : List (Option String × Json)) :
    memberTokens members = members.map fun m => .string m.1 :: .colon :: tokens m.2 := by
  induction members with
  | nil => rfl
  | cons m rest ih => rw [memberTokens, ih, List.map_cons]

theorem leads_intercalate {α : Type} (parts : List α) {f : α → List Token} {g : α → List Char}
    (h : ∀ p ∈ parts, Leads (f p) (g p)) (hf : Blanks feed) :
    Leads ([Token.comma].intercalate (parts.map f)) ((',' :: feed).intercalate (parts.map g)) := by
  induction parts with
  | nil => exact fun us ds _ hs => hs
  | cons p rest ih =>
    obtain ⟨hp, h⟩ := List.forall_mem_cons.mp h
    cases rest with
    | nil => simpa using hp
    | cons q rest =>
      intro us ds he hs
      have hrest := (ih h us ds he hs).blanks hf
      simpa using hp _ _ (ends_cons (by decide)) (.mark (c := ',') rfl hrest)

theorem leads_member (hl : Blanks lead) (hg : Blanks gap) (name : String) (value : Scalar) :
    Leads (.string (some name) :: .colon :: value.json.tokens)
      (lead ++ (quote name).toList ++ ':' :: gap ++ value.write.toList) := by
  intro us ds he hs
  have hcolon := Spells.mark (c := ':') rfl ((leads_write value us ds he hs).blanks hg)
  simpa using (hcolon.quote name).blanks hl

/-- An object with any white space after its brackets and commas, in front of its names, after its
colons and at its end. -/
theorem leads_object (hf : Blanks feed) (hl : Blanks lead) (hg : Blanks gap) (hc : Blanks close)
    (members : Members) :
    Leads (objectOf members).tokens
      ('{' :: feed ++ (',' :: feed).intercalate (members.map fun m =>
        lead ++ (quote m.1).toList ++ ':' :: gap ++ m.2.write.toList) ++ close ++ ['}']) := by
  intro us ds he hs
  have hend := (Spells.mark (c := '}') rfl hs).blanks hc
  have hmembers := leads_intercalate members
    (fun m _ => leads_member hl hg m.1 m.2) hf _ _ (ends_blanks hc (ends_cons (by decide))) hend
  have hopen := Spells.mark (c := '{') rfl (hmembers.blanks hf)
  simpa [objectOf, tokens, memberTokens_eq, Function.comp_def] using hopen

theorem leads_compact (members : Members) :
    Leads (objectOf members).tokens (compact members).toList := by
  have hb : Blanks [] := List.forall_mem_nil _
  have h := leads_object hb hb hb hb members
  simpa [compact, String.toList_intercalate, Function.comp_def] using h

theorem leads_pretty (indent : String) (hi : Blanks indent.toList) (members : Members) :
    Leads (objectOf members).tokens (pretty indent members).toList := by
  have hf : Blanks ['\n'] := by simp [Blanks, isBlank]
  have hg : Blanks [' '] := by simp [Blanks, isBlank]
  have hl : Blanks (indent.toList ++ [' ', ' ']) :=
    List.forall_mem_append.mpr ⟨hi, List.forall_mem_cons.mpr ⟨rfl, hg⟩⟩
  have hc : Blanks ('\n' :: indent.toList) := List.forall_mem_cons.mpr ⟨rfl, hi⟩
  have h := leads_object hf hl hg hc members
  simpa [pretty, String.toList_intercalate, Function.comp_def] using h

theorem leads_prettyList (objects : List Members) :
    Leads (array (objects.map objectOf)).tokens (prettyList objects).toList := by
  intro us ds he hs
  have hf : Blanks ['\n'] := by simp [Blanks, isBlank]
  have hb : Blanks "  ".toList := by simp [Blanks, isBlank]
  cases objects with
  | nil => exact .mark rfl (.mark rfl hs)
  | cons first rest =>
    have hitem (o : Members) :
        Leads (objectOf o).tokens ("  ".toList ++ (pretty "  " o).toList) := by
      intro us ds he hs
      simpa using (leads_pretty "  " hb o us ds he hs).blanks hb
    have hend := (Spells.mark (c := ']') rfl hs).blanks hf
    have hitems := leads_intercalate (first :: rest) (fun o _ => hitem o) hf _ _
      (ends_cons (by decide)) hend
    have hopen := Spells.mark (c := '[') rfl (hitems.blanks hf)
    simpa [prettyList, tokens, eachTokens_eq, String.toList_intercalate, Function.comp_def]
      using hopen

end

theorem natural?_toString {limit n : Nat} (h : n < limit) :
    (number (toString n)).natural? limit = some n := by
  have hd := Numeral.digits?_padded limit 0 n
  rwa [if_pos h] at hd

theorem parse?_compact (members : Members) :
    parse? (compact members) = some (objectOf members) :=
  parse?_of_spells (leads_compact members).spells

theorem parse?_prettyList (objects : List Members) :
    parse? (prettyList objects) = some (.array (objects.map objectOf)) :=
  parse?_of_spells (leads_prettyList objects).spells

end Xref.Json
