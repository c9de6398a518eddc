import Waveform.Control.Reporting
import Waveform.Domain.LanguageGrammar
import Waveform.Domain.Media
import Waveform.Domain.TtsOptions
import Waveform.Library.WhatwgUrl
import Waveform.Library.WordStart

/-!
# What a report may carry

`validate` reads the pull-request link of a report with the URL parser and checks the URL; `submit`
stores the link as it was sent, and `deliver_report` mails it so. The parser drops segments, tabs
and line breaks, and reads slashes, letters and ports in other spellings, which the check does not
see.

- `carriesNothing_iff`: **a report that is accepted carries no credential, and links to a pull
  request, exactly when its link is normal**.
-/

set_option autoImplicit false

namespace Waveform.Control

open Waveform.Domain hiding Url
open WhatwgUrl (Authority Outside Url Parts Normal IsSegment parse)
open WordStart (Occurs found found_iff found_append found_of_foreign)

/-! ## The check -/

/-- Credential prefixes refused in reports. No prefix overlaps itself, so that the matches of
`match_indices`, which are disjoint, are all there are. -/
def CREDENTIAL_PREFIXES : List String := [
  "slt_", "sar_", "sap_", "sapr_", "sarq_", "stk-", "whsec_", "sa_app_", "eyJhbGci", "eyJ0eXAi",
  "sk-", "AIza"]

/-- A character behind which a word goes on. -/
def isWordChar (c : Char) : Bool := c.isAlphanum || c == '_'

def credentialTokens : List (List Char) := CREDENTIAL_PREFIXES.map String.toList

/-- `contains_credential`. -/
def containsCredential (text : List Char) : Bool := found isWordChar credentialTokens text

/-- The code and the message of an answer with status 400. -/
structure BadRequest where
  code : String
  message : String
  deriving DecidableEq

def reportTooLong : BadRequest :=
  ⟨"report_requires_1_to_60000_bytes",
    "message must be 1 to 60000 bytes and client_version at most 100."⟩

def notPullRequest : BadRequest :=
  ⟨"pr_must_reference_silicon_waveform_pull_request",
    "pr must be https://github.com/teamofsilicons/silicon-waveform/pull/<number>."⟩

def hasCredential : BadRequest :=
  ⟨"remove_credentials_from_report",
    "The report contains what looks like a token, secret or API key. Remove it and send the report again."⟩

def pullPath : List Char := "/teamofsilicons/silicon-waveform/pull/".toList

/-- The URL is one of a pull request, as far as it is looked at. -/
def isPullRequest (url : Url) : Bool :=
  url.scheme == "https".toList && url.authority.host == "github.com".toList &&
    url.authority.username.isEmpty && url.authority.password.isNone && url.parts.query.isNone &&
    url.parts.fragment.isNone && pullPath.isPrefixOf url.pathname &&
    !(url.pathname.drop pullPath.length).isEmpty &&
    (url.pathname.drop pullPath.length).all Char.isDigit

/-- `validate`. -/
def validate (outside : Outside) (report : Report) : Except BadRequest Unit :=
  if isBlank report.message || 60000 < report.message.utf8ByteSize ||
      100 < report.clientVersion.utf8ByteSize then .error reportTooLong
  else if report.pr.any fun pr => !(parse outside pr.toList).any isPullRequest then
    .error notPullRequest
  else if containsCredential report.message.toList ||
      containsCredential report.clientVersion.toList then .error hasCredential
  else .ok ()

/-- `TextBody` of the mail. -/
def textBody (id : Uuid) (report : Report) : List Char :=
  "Report:".toList ++ ' ' :: (id.hyphenated ++ '\n' :: ("Version:".toList ++ ' ' ::
    (report.clientVersion.toList ++ '\n' :: '\n' :: (report.message.toList ++ '\n' :: '\n' ::
      ("PR:".toList ++ ' ' :: ((report.pr.getD "No PR attached").toList))))))

/-! ## What a report carries -/

/-- The texts of a report that are stored. -/
def storedTexts (report : Report) : List (List Char) :=
  [report.message.toList, report.clientVersion.toList] ++ (report.pr.map String.toList).toList

def pullUrl : List Char := "https://github.com/teamofsilicons/silicon-waveform/pull/".toList

/-- A link to a numbered pull request of the repository. -/
def IsPullRequestLink (link : List Char) : Prop :=
  ∃ number, number ≠ [] ∧ (∀ c ∈ number, c.isDigit = true) ∧ link = pullUrl ++ number

/-- A credential prefix stands at a word start. -/
def CarriesCredential (text : List Char) : Prop :=
  ∃ credential ∈ CREDENTIAL_PREFIXES, Occurs isWordChar credential.toList text

/-- The report carries no credential onwards, and its link is one to a pull request. -/
structure CarriesNothing (report : Report) : Prop where
  stored : ∀ text ∈ storedTexts report, ¬ CarriesCredential text
  mailed : ∀ id, ¬ CarriesCredential (textBody id report)
  link : ∀ pr, report.pr = some pr → IsPullRequestLink pr.toList

/-- The link is written as the URL that it is read as, and that URL names no port. -/
def LinkIsNormal (outside : Outside) (report : Report) : Prop :=
  ∀ pr, report.pr = some pr → ∃ url, parse outside pr.toList = some url ∧ url.href = pr.toList ∧
    url.authority.port = none

/-! ## Credentials -/

/-- The characters of a UUID, and those of a link to a pull request. -/
def linkChars : List Char :=
  ['h', 't', 'p', 's', ':', '/', 'g', 'i', 'u', 'b', '.', 'c', 'o', 'm', 'e', 'a', 'f',
    'n', 'l', 'w',
    'v', 'r', '-', 'd', '0', '1', '2', '3', '4', '5', '6', '7', '8', '9']

/-- The words of the path of a pull request. -/
def pathWords : List (List Char) :=
  ["teamofsilicons".toList, "silicon-waveform".toList, "pull".toList]

/-- What is evaluated of the texts: no credential prefix is empty, has a blank or consists of the
characters of links; the words of the mail carry no credential; and the URL of a pull request is put
together from its parts. -/
theorem texts_spec :
    (credentialTokens.all fun token => !token.isEmpty && !token.contains ' ' &&
      !token.contains '\n' &&
      token.any fun c => !linkChars.contains c) = true ∧
    (["Report:", "Version:", "PR:", "No PR attached"].all fun text =>
      !containsCredential text.toList) = true ∧
    (pullUrl.all fun c => linkChars.contains c) = true ∧
    pullUrl = "https".toList ++ [':', '/', '/'] ++ "github.com".toList ++ pullPath ∧
    pullPath = WhatwgUrl.pathText pathWords ++ ['/'] ∧
    (pathWords.all fun segment =>
      (segment.all fun c => !WhatwgUrl.pathSet c && !WhatwgUrl.isSlash c) &&
      !WhatwgUrl.isSingleDot segment && !WhatwgUrl.isDoubleDot segment) = true ∧
    ("github.com".toList.all fun c => !WhatwgUrl.endsAuthority c && WhatwgUrl.isPrintable c) =
      true ∧
    "github.com".toList ≠ [] ∧ WhatwgUrl.isWeb "https".toList = true := by
  decide +kernel

theorem credentialTokens_spec : ∀ token ∈ credentialTokens, token ≠ [] ∧ ' ' ∉ token ∧
    '\n' ∉ token ∧
    ∃ c ∈ token, c ∉ linkChars := by
  intro token htoken
  have hspec := List.all_eq_true.mp texts_spec.1 token htoken
  simpa [and_assoc] using hspec

theorem containsCredential_word {text : String}
    (h : text ∈ ["Report:", "Version:", "PR:", "No PR attached"]) :
    containsCredential text.toList = false := by
  have hplain := List.all_eq_true.mp texts_spec.2.1 text h
  simpa using hplain

theorem credentialTokens_ne_nil : ∀ token ∈ credentialTokens, token ≠ [] :=
  fun token htoken => (credentialTokens_spec token htoken).1

theorem carriesCredential_iff {text : List Char} :
    CarriesCredential text ↔ containsCredential text = true := by
  unfold containsCredential
  rw [found_iff credentialTokens_ne_nil]
  constructor
  · rintro ⟨credential, hmem, hoccurs⟩
    exact ⟨credential.toList, List.mem_map_of_mem hmem, hoccurs⟩
  · rintro ⟨token, htoken, hoccurs⟩
    obtain ⟨credential, hmem, rfl⟩ := List.mem_map.mp htoken
    exact ⟨credential, hmem, hoccurs⟩

theorem not_carriesCredential_iff {text : List Char} :
    ¬ CarriesCredential text ↔ containsCredential text = false := by
  rw [carriesCredential_iff, Bool.not_eq_true]

/-- Spaces and line breaks stand in no credential prefix, and no word goes on behind them. -/
theorem containsCredential_append {separator : Char} (h : separator = ' ' ∨ separator = '\n')
    (front back : List Char) : containsCredential (front ++ separator :: back) =
      (containsCredential front || containsCredential back) := by
  apply found_append credentialTokens_ne_nil
  · rcases h with rfl | rfl <;> rfl
  · intro token htoken
    obtain ⟨-, hspace, hbreak, -⟩ := credentialTokens_spec token htoken
    rcases h with rfl | rfl
    · exact hspace
    · exact hbreak

/-- **A text of these characters carries no credential.** -/
theorem containsCredential_of_linkChars {text : List Char} (h : ∀ c ∈ text, c ∈ linkChars) :
    containsCredential text = false := by
  apply found_of_foreign credentialTokens_ne_nil
  intro token htoken
  obtain ⟨-, -, -, c, hc, hforeign⟩ := credentialTokens_spec token htoken
  exact ⟨c, hc, fun hmem => hforeign (h c hmem)⟩

theorem fixedDigits_linkChars (width n : Nat) : ∀ c ∈ fixedDigits 16 width n, c ∈ linkChars := by
  have hdigit : ∀ i : Fin 16, linkChars.contains (Nat.digitChar i.val) = true := by decide
  induction width generalizing n with
  | zero => exact fun c hc => absurd hc List.not_mem_nil
  | succ width ih =>
      intro c hc
      rw [fixedDigits] at hc
      rcases List.mem_append.mp hc with hc | hc
      · exact ih _ c hc
      · rw [List.mem_singleton.mp hc]
        exact List.contains_iff_mem.mp (hdigit ⟨n % 16, Nat.mod_lt _ (by decide)⟩)

theorem hyphenated_linkChars (id : Uuid) : ∀ c ∈ id.hyphenated, c ∈ linkChars := by
  have hdigits := fixedDigits_linkChars 32 id
  have hdash : '-' ∈ linkChars := List.contains_iff_mem.mp (by decide)
  intro c hc
  simp only [Uuid.hyphenated, List.mem_append, List.mem_cons] at hc
  rcases hc with (((hc | rfl | hc) | rfl | hc) | rfl | hc) | rfl | hc
  · exact hdigits c (List.mem_of_mem_take hc)
  · exact hdash
  · exact hdigits c (List.mem_of_mem_drop (List.mem_of_mem_take hc))
  · exact hdash
  · exact hdigits c (List.mem_of_mem_drop (List.mem_of_mem_take hc))
  · exact hdash
  · exact hdigits c (List.mem_of_mem_drop (List.mem_of_mem_take hc))
  · exact hdash
  · exact hdigits c (List.mem_of_mem_drop hc)

/-- The mail carries what the report carries. -/
theorem containsCredential_textBody (id : Uuid) (report : Report) :
    containsCredential (textBody id report) =
      (containsCredential report.clientVersion.toList ||
        (containsCredential report.message.toList ||
        containsCredential (report.pr.getD "No PR attached").toList)) := by
  have hreport : containsCredential "Report:".toList = false := containsCredential_word (by simp)
  have hversion : containsCredential "Version:".toList = false := containsCredential_word (by simp)
  have hpr : containsCredential "PR:".toList = false := containsCredential_word (by simp)
  have hnil : containsCredential [] = false :=
    containsCredential_of_linkChars fun c hc => absurd hc List.not_mem_nil
  have hid := containsCredential_of_linkChars (hyphenated_linkChars id)
  have hblank : ∀ text, containsCredential ('\n' :: text) = containsCredential text := by
    intro text
    have hsplit := containsCredential_append (.inr rfl) [] text
    rwa [hnil, Bool.false_or] at hsplit
  unfold textBody
  rw [containsCredential_append (.inl rfl), containsCredential_append (.inr rfl),
    containsCredential_append (.inl rfl), containsCredential_append (.inr rfl), hblank,
    containsCredential_append (.inr rfl), hblank, containsCredential_append (.inl rfl),
    hreport, hid,
    hversion, hpr]
  simp

/-! ## Links -/

section Links

variable {url : Url} {report : Report} {outside : Outside}

/-- What the check sees of a link's URL. -/
theorem isPullRequest_iff : isPullRequest url = true ↔ url.scheme = "https".toList ∧
    url.authority.host = "github.com".toList ∧ url.authority.username = [] ∧
    url.authority.password = none ∧ url.parts.query = none ∧ url.parts.fragment = none ∧
    ∃ number, number ≠ [] ∧ (∀ c ∈ number, c.isDigit = true) ∧
      url.pathname = pullPath ++ number := by
  have hpath : (pullPath.isPrefixOf url.pathname = true ∧
      (!(url.pathname.drop pullPath.length).isEmpty) = true ∧
      (url.pathname.drop pullPath.length).all Char.isDigit = true) ↔
      ∃ number, number ≠ [] ∧ (∀ c ∈ number, c.isDigit = true) ∧
        url.pathname = pullPath ++ number := by
    constructor
    · rintro ⟨hstart, hne, hdigits⟩
      obtain ⟨number, hnumber⟩ := List.isPrefixOf_iff_prefix.mp hstart
      rw [← hnumber, List.drop_left] at hne hdigits
      exact ⟨number, by simpa using hne, List.all_eq_true.mp hdigits, hnumber.symm⟩
    · rintro ⟨number, hne, hdigits, hpath⟩
      rw [hpath, List.drop_left]
      exact ⟨List.isPrefixOf_iff_prefix.mpr ⟨number, rfl⟩, by simpa using hne,
        List.all_eq_true.mpr hdigits⟩
  unfold isPullRequest
  rw [← hpath]
  simp only [Bool.and_eq_true, beq_iff_eq, List.isEmpty_iff, Option.isNone_iff_eq_none]
  tauto

/-- What a report is accepted for. -/
theorem validate_ok (h : validate outside report = .ok ()) :
    (∀ pr, report.pr = some pr → ∃ url, parse outside pr.toList = some url ∧
      isPullRequest url = true) ∧
    containsCredential report.message.toList = false ∧
    containsCredential report.clientVersion.toList = false := by
  unfold validate at h
  split at h
  · cases h
  · split at h
    · cases h
    · rename_i hlink
      split at h
      · cases h
      · rename_i hplain
        obtain ⟨hmessage, hversion⟩ := not_or.mp (mt Bool.or_eq_true_iff.mpr hplain)
        refine ⟨fun pr hpr => ?_, Bool.not_eq_true _ ▸ hmessage, Bool.not_eq_true _ ▸ hversion⟩
        rw [hpr, Option.any_some, Bool.not_eq_true', Bool.not_eq_false] at hlink
        cases hparse : parse outside pr.toList with
        | none =>
            rw [hparse] at hlink
            cases hlink
        | some url =>
            rw [hparse] at hlink
            exact ⟨url, rfl, hlink⟩

/-- **A normal link without a port that is accepted is a link to a pull request.** -/
theorem isPullRequestLink_of_href (h : isPullRequest url = true)
    (hport : url.authority.port = none) :
    IsPullRequestLink url.href := by
  obtain ⟨hscheme, hhost, husername, hpassword, hquery, hfragment, number, hne, hdigits, hpath⟩ :=
    isPullRequest_iff.mp h
  refine ⟨number, hne, hdigits, ?_⟩
  have hauthority : url.authority.text = "github.com".toList := by
    rw [Authority.text, husername, hpassword, hport, hhost]
    rfl
  have htext : url.parts.text = pullPath ++ number := by
    rw [Parts.text, hquery, hfragment, ← hpath]
    exact List.append_nil _
  rw [Url.href, hscheme, hauthority, htext, texts_spec.2.2.2.1,
    List.append_assoc]
  simp only [List.append_assoc]

/-- The URL of a pull request. -/
def pullRequestUrl (number : List Char) : Url :=
  ⟨"https".toList, ⟨[], none, "github.com".toList, none⟩,
    ⟨pathWords ++ [number], none, none⟩⟩

theorem digit_chars {c : Char} (h : c.isDigit = true) :
    c ∈ linkChars ∧ WhatwgUrl.pathSet c = false ∧ WhatwgUrl.isSlash c = false ∧
      c.toLower ≠ '.' ∧ c.toLower ≠ '%' := by
  have hall : ∀ i : Fin 10, (linkChars.contains (Char.ofNat (48 + i.val)) &&
      !WhatwgUrl.pathSet (Char.ofNat (48 + i.val)) &&
        !WhatwgUrl.isSlash (Char.ofNat (48 + i.val)) &&
      (Char.ofNat (48 + i.val)).toLower != '.' && (Char.ofNat (48 + i.val)).toLower !=
        '%') = true := by
    decide +kernel
  obtain ⟨hlow, hhigh⟩ := isDigit_iff.mp h
  have hc := hall ⟨c.toNat - 48, by omega⟩
  rw [show 48 + (c.toNat - 48) = c.toNat by omega, Char.ofNat_toNat] at hc
  simpa [and_assoc] using hc

/-- The words of the path are segments. -/
theorem pathWords_segments : ∀ segment ∈ pathWords, IsSegment segment := by
  intro segment hsegment
  have hplain := List.all_eq_true.mp texts_spec.2.2.2.2.2.1 segment hsegment
  obtain ⟨hrest, hdouble⟩ := Bool.and_eq_true_iff.mp hplain
  obtain ⟨hchars, hsingle⟩ := Bool.and_eq_true_iff.mp hrest
  refine ⟨fun c hc => ?_, by simpa using hsingle, by simpa using hdouble⟩
  simpa using List.all_eq_true.mp hchars c hc

/-- A number is a segment. -/
theorem number_segment {number : List Char} (hne : number ≠ [])
    (hdigits : ∀ c ∈ number, c.isDigit = true) : IsSegment number := by
  have hdots : ∀ (dot : Char) (dots : List Char), dot = '.' ∨ dot = '%' →
      (WhatwgUrl.lower number == dot :: dots) = false := by
    intro dot dots hdot
    refine beq_eq_false_iff_ne.mpr fun heq => ?_
    cases number with
    | nil => exact hne rfl
    | cons c number =>
        obtain ⟨-, -, -, hnot, hnot'⟩ := digit_chars (hdigits c List.mem_cons_self)
        obtain ⟨hhead, -⟩ := List.cons.inj heq
        rcases hdot with rfl | rfl
        · exact hnot hhead
        · exact hnot' hhead
  refine ⟨fun c hc => ?_, ?_, ?_⟩
  · obtain ⟨-, hset, hslash, -⟩ := digit_chars (hdigits c hc)
    exact ⟨hset, hslash⟩
  · rw [WhatwgUrl.isSingleDot, hdots _ _ (.inl rfl), hdots _ _ (.inr rfl)]
    rfl
  · rw [WhatwgUrl.isDoubleDot, hdots _ _ (.inl rfl), hdots _ _ (.inl rfl), hdots _ _ (.inr rfl),
      hdots _ _ (.inr rfl)]
    rfl

theorem pullRequestUrl_normal {number : List Char} (hne : number ≠ [])
    (hdigits : ∀ c ∈ number, c.isDigit = true) : Normal (pullRequestUrl number).parts := by
  refine ⟨fun segment hsegment => ?_, by simp [pullRequestUrl],
    fun c hc => absurd hc List.not_mem_nil,
    fun c hc => absurd hc List.not_mem_nil⟩
  rcases List.mem_append.mp hsegment with hsegment | hsegment
  · exact pathWords_segments segment hsegment
  · rw [List.mem_singleton.mp hsegment]
    exact number_segment hne hdigits

theorem pullRequestUrl_authority (number : List Char) :
    (pullRequestUrl number).authority.text = "github.com".toList := List.append_nil _

theorem pullRequestUrl_href (number : List Char) :
    (pullRequestUrl number).href = pullUrl ++ number := by
  have htext : (pullRequestUrl number).parts.text = pullPath ++ number := by
    rw [texts_spec.2.2.2.2.1]
    simp [Parts.text, WhatwgUrl.pathText, WhatwgUrl.marked, pullRequestUrl]
  rw [Url.href, pullRequestUrl_authority, htext, texts_spec.2.2.2.1, ← List.append_assoc]
  rfl

/-- A link to a pull request is read as it is written. -/
theorem parse_pullRequest {number : List Char} (hne : number ≠ [])
    (hdigits : ∀ c ∈ number, c.isDigit = true)
    (hgithub : outside.authority "https".toList "github.com".toList =
      some ⟨[], none, "github.com".toList, none⟩) :
    parse outside (pullUrl ++ number) = some (pullRequestUrl number) := by
  obtain ⟨-, -, -, -, -, -, hchars, hname, hscheme⟩ := texts_spec
  rw [← pullRequestUrl_href]
  apply WhatwgUrl.parse_href hscheme (pullRequestUrl_normal hne hdigits)
  · rw [pullRequestUrl_authority]
    exact hname
  · intro c hc
    rw [pullRequestUrl_authority] at hc
    simpa using List.all_eq_true.mp hchars c hc
  · rw [pullRequestUrl_authority]
    exact hgithub

/-- No link to a pull request carries a credential. -/
theorem containsCredential_link {link : List Char} (h : IsPullRequestLink link) :
    containsCredential link = false := by
  obtain ⟨number, -, hdigits, rfl⟩ := h
  have hurl := texts_spec.2.2.1
  apply containsCredential_of_linkChars
  intro c hc
  rcases List.mem_append.mp hc with hc | hc
  · exact List.contains_iff_mem.mp (List.all_eq_true.mp hurl c hc)
  · exact (digit_chars (hdigits c hc)).1

/-- **A report that is accepted carries no credential onwards and links to a pull request exactly
when its link is normal and names no port.** -/
theorem carriesNothing_iff
    (hgithub : outside.authority "https".toList "github.com".toList =
      some ⟨[], none, "github.com".toList, none⟩)
    (h : validate outside report = .ok ()) : CarriesNothing report ↔
    LinkIsNormal outside report := by
  obtain ⟨hlink, hmessage, hversion⟩ := validate_ok h
  constructor
  · intro hcarries pr hpr
    obtain ⟨number, hne, hdigits, heq⟩ := hcarries.link pr hpr
    rw [heq]
    exact ⟨_, parse_pullRequest hne hdigits hgithub, pullRequestUrl_href number, rfl⟩
  · intro hnormal
    have hpull : ∀ pr, report.pr = some pr → IsPullRequestLink pr.toList := by
      intro pr hpr
      obtain ⟨url, hparse, hhref, hport⟩ := hnormal pr hpr
      obtain ⟨url', hparse', hpull⟩ := hlink pr hpr
      obtain rfl := Option.some.inj (hparse.symm.trans hparse')
      rw [← hhref]
      exact isPullRequestLink_of_href hpull hport
    have hpr : containsCredential (report.pr.getD "No PR attached").toList = false := by
      cases hcase : report.pr with
      | none => exact containsCredential_word (by simp)
      | some pr => exact containsCredential_link (hpull pr hcase)
    refine ⟨fun text htext => ?_, fun id => ?_, hpull⟩
    · rw [not_carriesCredential_iff]
      rcases List.mem_append.mp htext with htext | htext
      · rcases List.mem_cons.mp htext with rfl | htext
        · exact hmessage
        · rw [List.mem_singleton.mp htext]
          exact hversion
      · obtain ⟨pr, hcase, rfl⟩ := Option.map_eq_some_iff.mp (Option.mem_toList.mp htext)
        exact containsCredential_link (hpull pr hcase)
    · rw [not_carriesCredential_iff, containsCredential_textBody, hversion, hmessage, hpr]
      rfl

/-- The parser of authorities, as far as `github.com` goes. -/
def github : Outside where
  authority _ host :=
    if host = "github.com".toList then some ⟨[], none, "github.com".toList, none⟩ else none
  other _ _ := none
  other_scheme := @WhatwgUrl.noOther_scheme

theorem carriesNothing_iff_sample :
    CarriesNothing ⟨"m", some "https://github.com/teamofsilicons/silicon-waveform/pull/1", ""⟩ ↔
      LinkIsNormal github ⟨"m", some "https://github.com/teamofsilicons/silicon-waveform/pull/1",
        ""⟩ :=
  carriesNothing_iff (by decide +kernel) (by decide +kernel)

/-- The segment of a link that its normal form drops is stored with a credential in it. -/
theorem not_forall_carriesNothing : ¬ ∀ outside : Outside,
    outside.authority "https".toList "github.com".toList =
      some ⟨[], none, "github.com".toList, none⟩ →
    ∀ report, validate outside report = .ok () → CarriesNothing report := by
  intro h
  have hcarries := h github (by decide +kernel)
    ⟨"m", some "https://github.com/sk-secret/../teamofsilicons/silicon-waveform/pull/1", ""⟩
    (by decide +kernel)
  refine hcarries.stored _ (List.mem_append_right _ (List.mem_singleton_self _)) ?_
  rw [carriesCredential_iff]
  decide +kernel

end Links

end Waveform.Control
