import Waveform.Domain.Bytes
import Waveform.Domain.Identity
import Waveform.Domain.MediaTypeText
import Waveform.Operator.IdentityTables

/-!
# The mapping file of an operator

An operator maps the principals that were imported before accounts to accounts, one a line. A file
is accepted as a whole or refused with every malformed line in it.

- `parseMapping_ok`: the principals of an accepted file can be stored, except for U+0000, which is
  not looked for, and none is mapped to two accounts.
-/

set_option autoImplicit false

namespace Waveform.Operator

open Waveform.Domain
open Waveform.Store (storableText)

/-- One parsed mapping line. -/
structure MappingRow where
  line : Nat
  principal : String
  account : AccountUuid
  deriving DecidableEq

/-- What is wrong with a mapping file. -/
inductive MappingError where
  | columns (line : Nat)
  | principal (line : Nat)
  | account (line : Nat) (text : String)
  | twoAccounts (line : Nat) (principal : String) (previous account : AccountUuid)
  deriving DecidableEq

/-- The text of an error. -/
def MappingError.text : MappingError → String
  | .columns line => s!"line {line}: expected exactly two columns: iam_principal_id,accounts_uuid"
  | .principal line => s!"line {line}: iam_principal_id must be 1 to 255 characters"
  | .account line text =>
      s!"line {line}: `{text}` is not a Silicon Accounts uuid (letters and digits, case-sensitive)"
  | .twoAccounts line name previous other =>
      s!"line {line}: {name} is mapped to two different accounts (" ++ previous.asStr ++ " and " ++
        other.asStr ++ ")"

/-! ## Lines -/

/-- The rest of `str::lines`, with what is read of a line so far, last character first. -/
def linesFrom : List Char → List Char → List (List Char)
  | [], [] => []
  | line, [] => [line.reverse]
  | line, c :: rest =>
      if c = '\n' then
        -- a line break is `\n` or `\r\n`
        (if line.head? = some '\r' then line.tail else line).reverse :: linesFrom [] rest
      else linesFrom (c :: line) rest

/-- `str::lines`. -/
def lines (text : String) : List (List Char) := linesFrom [] text.toList

/-- The header that the first line may be. -/
def mappingHeader : String := "iam_principal_id,accounts_uuid"

/-- A line that maps nothing. -/
def skippedLine (line : Nat) (trimmed : List Char) : Bool :=
  trimmed.isEmpty || trimmed.head? = some '#' ||
    (line = 1 && String.ofList (trimmed.filter (· ≠ ' ')) = mappingHeader)

/-- One turn of the loop of `parse_mapping`. -/
def parseLine (line : Nat) (raw : List Char) : Option (Except MappingError MappingRow) :=
  let trimmed := trim raw
  if skippedLine line trimmed then none
  else
    match (trimmed.splitOn ',').map trim with
    | [principal, account] =>
        let principal := String.ofList principal
        if principal.isEmpty || decide (255 < principal.utf8ByteSize)
          then some (.error (.principal line))
        else
          match AccountUuid.fromStr? (String.ofList account) with
          | some account => some (.ok ⟨line, principal, account⟩)
          | none => some (.error (.account line (String.ofList account)))
    | _ => some (.error (.columns line))

/-! ## Files -/

/-- Principals that are mapped to another account than in the last row with them. -/
def twiceMapped (byPrincipal : String → Option AccountUuid) : List MappingRow → List MappingError
  | [] => []
  | row :: rest =>
      let later := twiceMapped (Function.update byPrincipal row.principal (some row.account)) rest
      match byPrincipal row.principal with
      | some previous =>
          if previous ≠ row.account then .twoAccounts row.line row.principal previous row.account ::
            later else later
      | none => later

/-- What the lines of a file are read as. -/
def parsedLines (text : String) : List (Except MappingError MappingRow) :=
  (lines text).zipIdx.filterMap fun (raw, index) => parseLine (index + 1) raw

/-- `parse_mapping`. -/
def parseMapping (text : String) : Except (List MappingError) (List MappingRow) :=
  let rows := (parsedLines text).filterMap Except.toOption
  let malformed := (parsedLines text).filterMap fun parsed =>
    match parsed with
    | .error error => some error
    | .ok _ => none
  let errors := malformed ++ twiceMapped (fun _ => none) rows
  if errors.isEmpty then .ok rows else .error errors

/-! ## Accepted files -/

/-- What the rows of an accepted file are, where PostgreSQL takes the text of each principal. -/
structure Accepted (rows : List MappingRow) : Prop where
  storable : ∀ row ∈ rows, storablePrincipal row.principal = true
  function : ∀ row ∈ rows, ∀ row' ∈ rows, row.principal = row'.principal →
    row.account = row'.account

theorem parseLine_length {line : Nat} {raw : List Char} {row : MappingRow}
    (h : parseLine line raw = some (.ok row)) :
    1 ≤ row.principal.length ∧ row.principal.length ≤ 255 := by
  unfold parseLine at h
  dsimp only at h
  split at h
  · cases h
  · split at h
    · next principal account hfields =>
        split at h
        · cases h
        · next hprincipal =>
            split at h
            · next uuid huuid =>
                cases h
                simp only [Bool.or_eq_true, decide_eq_true_eq, not_or, Nat.not_lt] at hprincipal
                have hlength := length_le_utf8ByteSize (String.ofList principal)
                have hpos : (String.ofList principal).length ≠ 0 := by
                  intro hzero
                  exact hprincipal.1 (by simpa [String.isEmpty_iff,
                    String.length_eq_zero_iff] using hzero)
                exact ⟨Nat.one_le_iff_ne_zero.mpr hpos, hlength.trans hprincipal.2⟩
            · cases h
    · cases h

/-- No error is found where no principal has two accounts. -/
theorem twiceMapped_eq_nil {byPrincipal : String → Option AccountUuid} {rows : List MappingRow}
    (h : twiceMapped byPrincipal rows = []) :
    (∀ row ∈ rows, ∀ previous ∈ byPrincipal row.principal, row.account = previous) ∧
      ∀ row ∈ rows, ∀ row' ∈ rows, row.principal = row'.principal → row.account = row'.account := by
  induction rows generalizing byPrincipal with
  | nil => exact ⟨fun row hrow => absurd hrow List.not_mem_nil,
      fun row hrow => absurd hrow List.not_mem_nil⟩
  | cons row rest ih =>
      have hlater : twiceMapped (Function.update byPrincipal row.principal (some row.account))
        rest = [] ∧
          ∀ previous ∈ byPrincipal row.principal, row.account = previous := by
        unfold twiceMapped at h
        dsimp only at h
        split at h
        · next previous hprevious =>
            split at h
            · cases h
            · next hsame =>
                refine ⟨h, fun other hother => ?_⟩
                rw [hprevious] at hother
                obtain rfl := Option.some.inj hother
                exact (not_not.mp hsame).symm
        · next hnone =>
            refine ⟨h, fun other hother => ?_⟩
            rw [hnone] at hother
            cases hother
      obtain ⟨hearlier, hpairs⟩ := ih hlater.1
      -- a later row of the same principal was compared with this one
      have hrow : ∀ row' ∈ rest, row'.principal = row.principal → row'.account = row.account := by
        intro row' hrow' hsame
        refine hearlier row' hrow' row.account ?_
        rw [hsame, Function.update_self]
        rfl
      refine ⟨fun row' hrow' previous hprevious => ?_, fun first hfirst second hsecond hsame => ?_⟩
      · rcases List.mem_cons.mp hrow' with rfl | hrow'
        · exact hlater.2 previous hprevious
        · by_cases hsame : row'.principal = row.principal
          · rw [hsame] at hprevious
            exact (hrow row' hrow' hsame).trans (hlater.2 previous hprevious)
          · refine hearlier row' hrow' previous ?_
            rw [Function.update_of_ne hsame]
            exact hprevious
      · rcases List.mem_cons.mp hfirst with rfl | hfirst
        · rcases List.mem_cons.mp hsecond with rfl | hsecond
          · rfl
          · exact (hrow second hsecond hsame.symm).symm
        · rcases List.mem_cons.mp hsecond with hhead | hsecond
          · rw [hhead] at hsame ⊢
            exact hrow first hfirst hsame
          · exact hpairs first hfirst second hsecond hsame

/-- **The rows of an accepted file**: they can be stored, where no principal has U+0000 in it, and
no principal is mapped to two accounts. -/
theorem parseMapping_ok {text : String} {rows : List MappingRow} (h : parseMapping text = .ok rows)
    (hsendable : ∀ row ∈ rows, storableText row.principal = true) : Accepted rows := by
  unfold parseMapping at h
  dsimp only at h
  split at h
  · next hnone =>
      obtain rfl := Except.ok.inj h
      obtain ⟨_, htwice⟩ := List.append_eq_nil_iff.mp (List.isEmpty_iff.mp hnone)
      refine ⟨fun row hrow => ?_, (twiceMapped_eq_nil htwice).2⟩
      obtain ⟨parsed, hparsed, hread⟩ := List.mem_filterMap.mp hrow
      obtain ⟨⟨raw, index⟩, _, hline⟩ := List.mem_filterMap.mp hparsed
      cases parsed with
      | error error => cases hread
      | ok row' =>
          obtain rfl := Option.some.inj hread
          unfold storablePrincipal
          rw [hsendable row' hrow, decide_eq_true (parseLine_length hline), Bool.and_self]
  · cases h

end Waveform.Operator
