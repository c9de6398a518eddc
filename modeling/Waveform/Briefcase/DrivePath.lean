import Waveform.Domain.Bytes
import Waveform.Library.PercentEncoding
import Waveform.Service.Speech

/-!
# The drive path behind a permanent URL

A permanent URL is `{origin}/{owner}/{drive path}`, and before accounts it was
`{origin}/org/{org}/{path}`. Both are read as a path in the drive of the account that asks: the
owner in the URL only marks where the path begins.

- `relativePath_eq_ok_iff`: the URLs that are accepted, and the path each of them names.
- `relativePath_eq_iff`: two URLs are read as one path exactly when they name the same segments
  after their owners.
-/

set_option autoImplicit false

namespace Waveform.Briefcase

open Waveform.Domain Waveform.Service

/-- The origin of a URL: scheme, host and port. -/
abbrev Origin := String × Option UrlHost × Nat

/-! ## Segments -/

/-- `Url::path_segments`. -/
def pathSegments (url : Url) : Option (List String) :=
  match url.path.toList with
  | '/' :: rest => some ((rest.splitOn '/').map String.ofList)
  | _ => none

/-- `percent_decode_str(part).decode_utf8()`. -/
def decodeSegment (part : String) : Option String :=
  String.fromUTF8? (PercentEncoding.decode (utf8 part)).toByteArray

/-- The segments of a URL, each decoded once. -/
def decodedSegments (url : Url) : Option (List String) :=
  (pathSegments url).bind fun parts => parts.mapM decodeSegment

/-- `char::is_control`: the general category Cc. -/
def isControl (c : Char) : Bool :=
  decide (c.toNat < 32) || (decide (127 ≤ c.toNat) && decide (c.toNat < 160))

/-- The segments that are refused once they are decoded. -/
def refusedSegment (segment : String) : Bool :=
  segment.isEmpty || segment == "." || segment == ".." ||
    segment.toList.any (fun c => c == '/' || c == '\\') || segment.toList.any isControl

/-- A segment that names one entry of a folder. -/
structure PlainSegment (segment : String) : Prop where
  nonempty : segment ≠ ""
  notDot : segment ≠ "."
  notDotDot : segment ≠ ".."
  noSlash : '/' ∉ segment.toList
  noBackslash : '\\' ∉ segment.toList
  noControl : ∀ c ∈ segment.toList, isControl c = false

theorem refusedSegment_eq_false_iff {segment : String} : refusedSegment segment = false ↔
    PlainSegment segment := by
  simp only [refusedSegment, Bool.or_eq_false_iff, List.any_eq_false, beq_eq_false_iff_ne, ne_eq,
    String.isEmpty_iff,
    Bool.not_eq_true, ← Bool.not_eq_true (String.isEmpty segment)]
  constructor
  · rintro ⟨⟨⟨⟨hempty, hdot⟩, hdotdot⟩, hseparators⟩, hcontrol⟩
    exact ⟨hempty, hdot, hdotdot, fun h => (hseparators '/' h).1 rfl,
      fun h => (hseparators '\\' h).2 rfl, hcontrol⟩
  · rintro ⟨hempty, hdot, hdotdot, hslash, hbackslash, hcontrol⟩
    refine ⟨⟨⟨⟨hempty, hdot⟩, hdotdot⟩, fun c hc => ⟨?_, ?_⟩⟩, hcontrol⟩
    · rintro rfl
      exact hslash hc
    · rintro rfl
      exact hbackslash hc

/-- A text without a percent sign is read as it stands. -/
theorem decodeSegment_of_noPercent {part : String} (h : PercentEncoding.percent ∉ utf8 part) :
    decodeSegment part = some part := by
  unfold decodeSegment
  rw [PercentEncoding.decode_of_noPercent h]
  have hbytes : (utf8 part).toByteArray = part.toByteArray := by
    rw [← String.utf8Encode_toList]
    rfl
  rw [hbytes]
  unfold String.fromUTF8?
  rw [dif_pos part.isValidUTF8]
  rfl

/-! ## Paths -/

/-- The segments that stand for the owner: legacy `/org/{org}/{path…}`, else `/{owner}/{path…}`. -/
def skippedSegments (segments : List String) : Nat :=
  if segments.head? = some "org" ∧ 4 ≤ segments.length then 2 else 1

/-- `relative_path`. -/
def relativePath (permanentOrigin : Origin) (file : BriefcaseFileUrl) :
    Except BriefcaseError String :=
  if urlOrigin file.url ≠ permanentOrigin then .error .forbidden
  else
    match decodedSegments file.url with
    | none => .error .notFound
    | some segments =>
        if segments.any refusedSegment then .error .notFound
        else if segments.length ≤ skippedSegments segments then .error .notFound
        else .ok ("/".intercalate (segments.drop (skippedSegments segments)))

/-- What the segments of a URL name: the part that stands for the owner, and the path in the owner's
drive. -/
inductive Names : List String → List String → List String → Prop where
  | legacy (org first second : String) (rest : List String) :
      Names ("org" :: org :: first :: second :: rest) ["org", org] (first :: second :: rest)
  | account (owner first : String) (rest : List String) (h : owner = "org" → rest.length < 2) :
      Names (owner :: first :: rest) [owner] (first :: rest)

theorem Names.append {segments owner path : List String} (h : Names segments owner path) :
    owner ++ path = segments := by
  cases h <;> rfl

theorem Names.path_ne_nil {segments owner path : List String} (h : Names segments owner path) :
    path ≠ [] := by
  cases h <;> exact List.cons_ne_nil _ _

/-- The segments that are skipped are the owner's. -/
theorem names_iff {segments owner path : List String} :
    Names segments owner path ↔ skippedSegments segments < segments.length ∧
      owner = segments.take (skippedSegments segments) ∧
        path = segments.drop (skippedSegments segments) := by
  constructor
  · intro h
    cases h with
    | legacy org first second rest =>
        have hskip : skippedSegments ("org" :: org :: first :: second :: rest) = 2 :=
          if_pos ⟨rfl, by simp⟩
        rw [hskip]
        exact ⟨by simp, rfl, rfl⟩
    | account owner first rest h =>
        have hskip : skippedSegments (owner :: first :: rest) = 1 := by
          refine if_neg ?_
          rintro ⟨howner, hlength⟩
          have hrest := h (Option.some.inj howner)
          simp only [List.length_cons] at hlength
          omega
        rw [hskip]
        exact ⟨by simp, rfl, rfl⟩
  · rintro ⟨hlength, rfl, rfl⟩
    by_cases hlegacy : segments.head? = some "org" ∧ 4 ≤ segments.length
    · have hskip : skippedSegments segments = 2 := if_pos hlegacy
      rw [hskip]
      match segments, hlegacy with
      | _ :: org :: first :: second :: rest, ⟨rfl, _⟩ => exact .legacy org first second rest
    · have hskip : skippedSegments segments = 1 := if_neg hlegacy
      rw [hskip] at hlength ⊢
      match segments, hlength with
      | owner :: first :: rest, _ =>
          refine .account owner first rest ?_
          rintro rfl
          by_contra hlong
          exact hlegacy ⟨rfl, by simp only [List.length_cons]; omega⟩

/-- A URL of the origin names a file: its decoded segments are an owner part and a path, all of them
plain. -/
structure NamesFile (permanentOrigin : Origin) (file : BriefcaseFileUrl)
    (owner named : List String) : Prop where
  origin : urlOrigin file.url = permanentOrigin
  decoded : decodedSegments file.url = some (owner ++ named)
  plain : ∀ segment ∈ owner ++ named, PlainSegment segment
  names : Names (owner ++ named) owner named

/-- A URL that names a file is read as the path of the file. -/
theorem NamesFile.relativePath {permanentOrigin : Origin} {file : BriefcaseFileUrl}
    {owner named : List String}
    (h : NamesFile permanentOrigin file owner named) :
    relativePath permanentOrigin file = .ok ("/".intercalate named) := by
  obtain ⟨hlength, _, hnamed⟩ := names_iff.mp h.names
  have hplain : (owner ++ named).any refusedSegment = false := by
    simp only [List.any_eq_false, Bool.not_eq_true, refusedSegment_eq_false_iff]
    exact h.plain
  unfold Briefcase.relativePath
  rw [if_neg (not_not.mpr h.origin), h.decoded]
  simp only
  rw [hplain, if_neg Bool.false_ne_true, if_neg (Nat.not_le_of_lt hlength), ← hnamed]

/-- **The URLs that are accepted, and the path each of them names.** -/
theorem relativePath_eq_ok_iff {permanentOrigin : Origin} {file : BriefcaseFileUrl}
    {path : String} :
    relativePath permanentOrigin file = .ok path ↔
      ∃ owner named, NamesFile permanentOrigin file owner named ∧ path = "/".intercalate named := by
  constructor
  · intro h
    unfold relativePath at h
    split at h
    · cases h
    · next horigin =>
        cases hdecoded : decodedSegments file.url with
        | none =>
            rw [hdecoded] at h
            cases h
        | some segments =>
            rw [hdecoded] at h
            simp only at h
            split at h
            · cases h
            · next hrefused =>
                split at h
                · cases h
                · next hlength =>
                    have hsegments := List.take_append_drop (skippedSegments segments) segments
                    have hplain : ∀ segment ∈ segments, PlainSegment segment := by
                      simp only [List.any_eq_true, not_exists, not_and, Bool.not_eq_true,
                        refusedSegment_eq_false_iff] at hrefused
                      exact hrefused
                    refine ⟨segments.take (skippedSegments segments),
                      segments.drop (skippedSegments segments), ?_,
                      (Except.ok.inj h).symm⟩
                    refine ⟨not_not.mp horigin, ?_, ?_, ?_⟩
                    · rw [hsegments, hdecoded]
                    · rw [hsegments]
                      exact hplain
                    · rw [hsegments]
                      exact names_iff.mpr ⟨Nat.lt_of_not_le hlength, rfl, rfl⟩
  · rintro ⟨owner, named, hnames, rfl⟩
    exact hnames.relativePath

/-- Segments without a slash can be read back from a path. -/
theorem intercalate_inj {segments segments' : List String}
    (hplain : ∀ segment ∈ segments, '/' ∉ segment.toList)
    (hplain' : ∀ segment ∈ segments', '/' ∉ segment.toList) (hne : segments ≠ [])
    (hne' : segments' ≠ [])
    (h : "/".intercalate segments = "/".intercalate segments') : segments = segments' := by
  have hsplit : ∀ {l : List String}, (∀ segment ∈ l, '/' ∉ segment.toList) → l ≠ [] →
      ("/".intercalate l).toList.splitOn '/' = l.map String.toList := by
    intro l hl hl'
    rw [String.toList_intercalate]
    refine List.splitOn_intercalate '/' ?_ (by simpa using hl')
    intro chars hchars
    obtain ⟨segment, hsegment, rfl⟩ := List.mem_map.mp hchars
    exact hl segment hsegment
  refine List.map_injective_iff.mpr (fun _ _ => String.toList_inj.mp) ?_
  rw [← hsplit hplain hne, ← hsplit hplain' hne', h]

theorem NamesFile.noSlash {permanentOrigin : Origin} {file : BriefcaseFileUrl}
    {owner named : List String}
    (h : NamesFile permanentOrigin file owner named) : ∀ segment ∈ named, '/' ∉ segment.toList :=
  fun segment hsegment => (h.plain segment (List.mem_append_right owner hsegment)).noSlash

/-- **Two URLs are read as one path exactly when they name the same segments after their
owners.** -/
theorem relativePath_eq_iff {permanentOrigin : Origin} {file file' : BriefcaseFileUrl}
    {owner owner' named named' : List String} (h : NamesFile permanentOrigin file owner named)
    (h' : NamesFile permanentOrigin file' owner' named') :
    relativePath permanentOrigin file = relativePath permanentOrigin file' ↔ named = named' := by
  rw [h.relativePath, h'.relativePath]
  constructor
  · intro hsame
    exact intercalate_inj h.noSlash h'.noSlash h.names.path_ne_nil h'.names.path_ne_nil
      (Except.ok.inj hsame)
  · rintro rfl
    rfl

/-! ## Folders -/

/-- `path.rsplit_once('/')`: the folder of a path, unless it lies at the top of the drive. -/
def parentPath (path : String) : Option String :=
  match path.toList.reverse.dropWhile (· != '/') with
  | [] => none
  | _ :: parent => some (String.ofList parent.reverse)

/-- The folder of a path that is given by its segments. -/
def folderOf (named : List String) : Option String :=
  if named.dropLast = [] then none else some ("/".intercalate named.dropLast)

/-- The folder of a path has all its segments but the last one. -/
theorem parentPath_intercalate {named : List String} (hne : named ≠ [])
    (hplain : ∀ segment ∈ named, '/' ∉ segment.toList) :
    parentPath ("/".intercalate named) = folderOf named := by
  obtain ⟨folder, name, rfl⟩ := (List.eq_nil_or_concat named).resolve_left hne
  rw [List.concat_eq_append] at hplain ⊢
  have hname : '/' ∉ name.toList :=
    hplain name (List.mem_append_right _ (List.mem_singleton_self name))
  have hdrop : ∀ rest : List Char, (name.toList.reverse ++ rest).dropWhile (· != '/') =
      rest.dropWhile (· != '/') := by
    intro rest
    refine List.dropWhile_append_of_pos fun c hc => ?_
    refine bne_iff_ne.mpr ?_
    rintro rfl
    exact hname (List.mem_reverse.mp hc)
  unfold parentPath folderOf
  rw [List.dropLast_concat]
  by_cases hfolder : folder = []
  · subst hfolder
    have hnone := hdrop []
    rw [List.append_nil] at hnone
    rw [List.nil_append, String.intercalate_singleton, hnone]
    rfl
  · rw [if_neg hfolder, String.intercalate_append_of_ne_nil hfolder (List.cons_ne_nil _ _),
      String.intercalate_singleton,
      String.toList_append, String.toList_append, List.reverse_append, hdrop, List.reverse_append]
    change some (String.ofList ("/".intercalate folder).toList.reverse.reverse) = _
    rw [List.reverse_reverse, String.ofList_toList]

end Waveform.Briefcase
