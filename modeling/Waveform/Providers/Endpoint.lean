import Waveform.Briefcase.DrivePath
import Waveform.Providers.Runtime

/-!
# Endpoint URLs

`ProviderRuntime::url` puts the segments of an endpoint behind those of the provider's base URL. The
base's segments are escaped already when they are read out of the parsed URL; the writer of segments
escapes what it is given, percent signs included.

- `url_eq_error_iff`: the endpoints that are refused.
- `url_correct_iff`: which URLs have the segments of the base and the endpoint.
- `escaped_base_changed`: a base whose path has an escape in it.
-/

set_option autoImplicit false

namespace Waveform.Providers

open Domain (Url utf8 asciiText utf8_asciiText)
open Briefcase (pathSegments)
open PercentEncoding (percent encode decode hasEscape decode_encode decode_eq_self_iff)

/-- `is_api_version`: `v`, a digit, and only ASCII letters and digits. -/
def isApiVersion (segment : String) : Bool :=
  match segment.toList with
  | 'v' :: first :: rest => first.isDigit && (first :: rest).all Char.isAlphanum
  | _ => false

/-- `validate_http_url`. -/
def validHttpUrl (url : Url) : Bool :=
  (url.scheme == "http" || url.scheme == "https") && url.host.isSome && url.username == "" &&
    url.password.isNone && url.query.isNone && url.fragment.isNone

/-- The tab and the line breaks, which URLs are read and written without. -/
def isBreak (b : UInt8) : Bool := b == 9 || b == 10 || b == 13

/-- The text contains a tab or a line break. -/
def hasBreak (text : String) : Bool := (utf8 text).any isBreak

/-- `segment` is `.` or `..`. -/
def isDotSegment (segment : String) : Bool := segment == "." || segment == ".."

/-- A base URL as the settings accept it. A parsed HTTP URL has a path from the root, with its dot
segments resolved and its tabs and line breaks dropped. -/
structure BaseUrl where
  url : Url
  valid : validHttpUrl url = true
  segments : List String
  parsed : pathSegments url = some segments
  noDots : ∀ segment ∈ segments, isDotSegment segment = false
  noBreaks : ∀ segment ∈ segments, hasBreak segment = false

/-- `percent_encode`. -/
def percentEncode (set : UInt8 → Bool) (bytes : List UInt8) : String := asciiText (encode set bytes)

/-- `utf8_percent_encode`. -/
def utf8PercentEncode (set : UInt8 → Bool) (text : String) : String := percentEncode set (utf8 text)

/-- The path of segments. -/
def pathOf (segments : List String) : String := "/" ++ "/".intercalate segments

/-- A segment that is written as it is, but for its escapes. -/
def isWritten (segment : String) : Bool :=
  segment != "" && !isDotSegment segment && !hasBreak segment

/-- The bytes that are escaped in a segment, as far as the reading back rests on them. -/
structure EscapeSet (set : UInt8 → Bool) : Prop where
  percent : set percent = true
  slash : set 47 = true
  nonAscii : ∀ b : UInt8, 128 ≤ b.toNat → set b = true

/-- `path_segments_mut` of a URL whose path has been cleared, followed by `extend`: each segment is
encoded as when a URL is parsed, but with percent signs and slashes as well, and what is written has
no tab and no line break. -/
structure SegmentWriter where
  set : UInt8 → Bool
  escapes : EscapeSet set
  extend : List String → String
  extend_written : ∀ segments : List String, segments ≠ [] → segments.all isWritten = true →
    extend segments = pathOf (segments.map (utf8PercentEncode set))
  extend_noBreaks : ∀ (segments : List String) (url : Url) (parts : List String),
    pathSegments { url with path := extend segments } = some parts →
    ∀ part ∈ parts, (decode (utf8 part)).any isBreak = false

/-- The non-empty parts of a text between slashes. -/
def slashSegments (text : String) : List String :=
  ((text.toList.splitOn '/').map String.ofList).filter (· != "")

/-- `base_segments`, as they are read. -/
def BaseUrl.nonEmpty (base : BaseUrl) : List String := base.segments.filter (· != "")

/-- The base's segments, without the version that the endpoint names itself. -/
def keptSegments (base : BaseUrl) (endpoint : String) : List String :=
  if (slashSegments endpoint).any isApiVersion && base.nonEmpty.getLast?.any isApiVersion
    then base.nonEmpty.dropLast
  else base.nonEmpty

/-- `ProviderRuntime::url`. -/
def providerUrl (writer : SegmentWriter) (base : BaseUrl) (endpoint : String) :
    Except ProviderError Url :=
  if (slashSegments endpoint).isEmpty || (slashSegments endpoint).any isDotSegment
    then .error (.new .configuration)
  else
    .ok { base.url with
      query := none
      fragment := none
      path := writer.extend (keptSegments base endpoint ++ slashSegments endpoint) }

/-! ## What the writer writes -/

theorem mem_escape_lt {a b : UInt8} (h : b ∈ PercentEncoding.escape a) :
    b.toNat < 128 ∧ b ≠ 47 := by
  have hdigit : ∀ i : Fin 16, (PercentEncoding.hexDigit i).toNat < 128 ∧
    PercentEncoding.hexDigit i ≠ 47 := by decide
  have ha : a.toNat < 256 := a.toNat_lt
  simp only [PercentEncoding.escape, List.mem_cons, List.not_mem_nil, or_false] at h
  rcases h with rfl | rfl | rfl
  · decide
  · exact hdigit ⟨a.toNat / 16, by omega⟩
  · exact hdigit ⟨a.toNat % 16, by omega⟩

namespace EscapeSet

variable {set : UInt8 → Bool} (h : EscapeSet set)

include h

/-- What is written is ASCII, without slashes. -/
theorem mem_encode_lt {bytes : List UInt8} {b : UInt8} (hb : b ∈ encode set bytes) :
    b.toNat < 128 ∧ b ≠ 47 := by
  rcases PercentEncoding.mem_encode hb with ⟨-, hout⟩ | ⟨a, -, -, hescape⟩
  · constructor
    · by_contra hbig
      rw [h.nonAscii b (Nat.le_of_not_lt hbig)] at hout
      cases hout
    · rintro rfl
      rw [h.slash] at hout
      cases hout
  · exact mem_escape_lt hescape

/-- Decoded once, a written segment is what was given to the writer, escapes and all. -/
theorem decode_percentEncode (bytes : List UInt8) :
    decode (utf8 (percentEncode set bytes)) = bytes := by
  rw [percentEncode, utf8_asciiText fun _ hb => (h.mem_encode_lt hb).1]
  exact decode_encode h.percent bytes

theorem noSlash (bytes : List UInt8) : '/' ∉ (percentEncode set bytes).toList := by
  intro hslash
  rw [percentEncode, asciiText, String.toList_ofList] at hslash
  obtain ⟨b, hb, hchar⟩ := List.mem_map.mp hslash
  obtain ⟨hlt, hne⟩ := h.mem_encode_lt hb
  have hall : ∀ i : Fin 128, Char.ofNat i.val = '/' → i.val = 47 := by decide
  exact hne (UInt8.toNat_inj.mp (hall ⟨b.toNat, hlt⟩ hchar))

end EscapeSet

/-- A path is read back as its segments. -/
theorem pathSegments_pathOf (url : Url) {segments : List String} (hne : segments ≠ [])
    (hslash : ∀ segment ∈ segments, '/' ∉ segment.toList) :
    pathSegments { url with path := pathOf segments } = some segments := by
  have hpath : (pathOf segments).toList = '/' ::
      ['/'].intercalate (segments.map String.toList) := by
    rw [pathOf, String.toList_append, String.toList_intercalate]
    rfl
  have hsplit : (['/'].intercalate (segments.map String.toList)).splitOn '/' =
      segments.map String.toList := by
    refine List.splitOn_intercalate '/' ?_ (by simpa using hne)
    intro l hl
    obtain ⟨segment, hsegment, rfl⟩ := List.mem_map.mp hl
    exact hslash segment hsegment
  simp only [pathSegments, hpath, hsplit, List.map_map]
  congr 1
  exact List.map_id'' (fun segment => String.ofList_toList) _

theorem pathSegments_pathOf_nil (url : Url) :
    pathSegments { url with path := pathOf [] } = some [""] := by
  have hpath : (pathOf []).toList = ['/'] := by decide
  simp only [pathSegments, hpath]
  rfl

/-- The writer's path, read back and decoded once, has the given texts as its segments. -/
theorem pathSegments_extend (writer : SegmentWriter) (url : Url) {segments : List String}
    (hne : segments ≠ [])
    (h : segments.all isWritten = true) :
    ∃ parts, pathSegments { url with path := writer.extend segments } = some parts ∧
      parts.map (fun part => decode (utf8 part)) = segments.map utf8 := by
  refine ⟨segments.map (utf8PercentEncode writer.set), ?_, ?_⟩
  · rw [writer.extend_written segments hne h]
    refine pathSegments_pathOf url (by simpa using hne) ?_
    intro part hpart
    obtain ⟨segment, -, rfl⟩ := List.mem_map.mp hpart
    exact writer.escapes.noSlash _
  · rw [List.map_map]
    refine List.map_congr_left fun segment _ => ?_
    rw [Function.comp_apply]
    exact writer.escapes.decode_percentEncode _

/-! ## The segments of the URL -/

/-- The endpoints that are refused. -/
def RefusedEndpoint (endpoint : String) : Prop :=
  slashSegments endpoint = [] ∨ ∃ segment ∈ slashSegments endpoint, segment = "." ∨ segment = ".."

theorem refused_iff {endpoint : String} :
    ((slashSegments endpoint).isEmpty || (slashSegments endpoint).any isDotSegment) = true ↔
      RefusedEndpoint endpoint := by
  simp [RefusedEndpoint, isDotSegment]

/-- Only an endpoint without a segment or with a dot segment is refused. -/
theorem url_eq_error_iff (writer : SegmentWriter) (base : BaseUrl) (endpoint : String) :
    (∃ error, providerUrl writer base endpoint = .error error) ↔ RefusedEndpoint endpoint := by
  rw [← refused_iff, providerUrl]
  split
  case isTrue h => exact ⟨fun _ => h, fun _ => ⟨_, rfl⟩⟩
  case isFalse h => exact ⟨fun ⟨_, he⟩ => by (cases he), fun hrefused => absurd hrefused h⟩

theorem mem_keptSegments {base : BaseUrl} {endpoint segment : String}
    (h : segment ∈ keptSegments base endpoint) :
    segment ∈ base.segments ∧ segment ≠ "" := by
  have hmem : segment ∈ base.nonEmpty := by
    unfold keptSegments at h
    split at h
    · exact List.dropLast_subset _ h
    · exact h
  obtain ⟨hbase, hne⟩ := List.mem_filter.mp hmem
  exact ⟨hbase, by simpa using hne⟩

theorem ne_empty_of_mem_slashSegments {text segment : String} (h : segment ∈ slashSegments text) :
    segment ≠ "" := by
  simpa using (List.mem_filter.mp h).2

/-- What the URL of a base and an endpoint is for: the base's origin, no query and no fragment, and
a path whose segments, decoded once, are the base's, decoded once, followed by the endpoint's; and a
refusal for nothing but an endpoint without a segment or with a dot segment. -/
structure UrlCorrect (writer : SegmentWriter) (base : BaseUrl) (endpoint : String) : Prop where
  refused : (∃ error, providerUrl writer base endpoint = .error error) ↔ RefusedEndpoint endpoint
  built : ∀ url, providerUrl writer base endpoint = .ok url →
    url.scheme = base.url.scheme ∧ url.host = base.url.host ∧ url.port = base.url.port ∧
    url.query = none ∧ url.fragment = none ∧
    ∃ parts, pathSegments url = some parts ∧
      parts.map (fun part => decode (utf8 part)) =
        (keptSegments base endpoint).map (fun part => decode (utf8 part)) ++
          (slashSegments endpoint).map utf8

section Correct

variable {writer : SegmentWriter} {base : BaseUrl} {endpoint : String}

/-- What is built of an endpoint that is not refused. -/
theorem providerUrl_eq_ok (hrefused : ¬RefusedEndpoint endpoint) :
    providerUrl writer base endpoint = .ok { base.url with
      query := none
      fragment := none
      path := writer.extend (keptSegments base endpoint ++ slashSegments endpoint) } := by
  rw [providerUrl, if_neg fun h => hrefused (refused_iff.mp h)]

theorem segments_ne_nil (hrefused : ¬RefusedEndpoint endpoint) :
    keptSegments base endpoint ++ slashSegments endpoint ≠ [] :=
  fun h => hrefused (.inl (List.append_eq_nil_iff.mp h).2)

/-- All segments are written as they are, but for their escapes. -/
theorem segments_written (hrefused : ¬RefusedEndpoint endpoint)
    (hbreaks : ∀ segment ∈ slashSegments endpoint, hasBreak segment = false) :
    (keptSegments base endpoint ++ slashSegments endpoint).all isWritten = true := by
  refine List.all_eq_true.mpr fun segment hsegment => ?_
  rcases List.mem_append.mp hsegment with hkept | hend
  · obtain ⟨hbase, hempty⟩ := mem_keptSegments hkept
    simp [isWritten, hempty, base.noDots segment hbase, base.noBreaks segment hbase]
  · have hdot : isDotSegment segment = false := by
      rw [Bool.eq_false_iff]
      intro hdot
      exact hrefused (.inr ⟨segment, hend, by simpa [isDotSegment] using hdot⟩)
    simp [isWritten, ne_empty_of_mem_slashSegments hend, hdot, hbreaks segment hend]

/-- The segments of the built URL, decoded once: those of the base stand there as they are written
in the base. -/
theorem decoded_segments (hrefused : ¬RefusedEndpoint endpoint)
    (hbreaks : ∀ segment ∈ slashSegments endpoint, hasBreak segment = false) {url : Url}
    (hurl : providerUrl writer base endpoint = .ok url) :
    ∃ parts, pathSegments url = some parts ∧ parts.map (fun part => decode (utf8 part)) =
      (keptSegments base endpoint).map utf8 ++ (slashSegments endpoint).map utf8 := by
  obtain rfl := Except.ok.inj ((providerUrl_eq_ok hrefused).symm.trans hurl)
  rw [← List.map_append]
  exact pathSegments_extend writer { base.url with query := none, fragment := none }
    (segments_ne_nil hrefused)
    (segments_written hrefused hbreaks)

/-- A tab or a line break of the endpoint would be missing. -/
theorem UrlCorrect.noBreaks (h : UrlCorrect writer base endpoint)
    (hrefused : ¬RefusedEndpoint endpoint) :
    ∀ segment ∈ slashSegments endpoint, hasBreak segment = false := by
  intro segment hsegment
  obtain ⟨-, -, -, -, -, parts, hparts, hdecoded⟩ := h.built _ (providerUrl_eq_ok hrefused)
  have hmem : utf8 segment ∈ parts.map (fun part => decode (utf8 part)) := by
    rw [hdecoded]
    exact List.mem_append_right _ (List.mem_map_of_mem hsegment)
  obtain ⟨part, hpart, heq⟩ := List.mem_map.mp hmem
  rw [hasBreak, ← heq]
  exact writer.extend_noBreaks _ { base.url with query := none, fragment := none }
    _ hparts part hpart

/-- An escape of the base would be escaped again. -/
theorem UrlCorrect.noEscapes (h : UrlCorrect writer base endpoint)
    (hrefused : ¬RefusedEndpoint endpoint) :
    ∀ segment ∈ keptSegments base endpoint, hasEscape (utf8 segment) = false := by
  intro segment hsegment
  have hurl : providerUrl writer base endpoint = .ok _ := providerUrl_eq_ok hrefused
  obtain ⟨-, -, -, -, -, parts, hparts, hdecoded⟩ := h.built _ hurl
  obtain ⟨parts', hparts', hdecoded'⟩ := decoded_segments hrefused (h.noBreaks hrefused) hurl
  obtain rfl := Option.some.inj (hparts.symm.trans hparts')
  rw [hdecoded'] at hdecoded
  have hkept := (List.append_inj hdecoded (by rw [List.length_map, List.length_map])).1
  rw [← decode_eq_self_iff]
  exact (List.map_inj_left.mp hkept segment hsegment).symm

end Correct

/-- The URL's segments are the base's and the endpoint's exactly when no segment that is kept of the
base has an escape in it, which would be escaped again, and no segment of the endpoint a tab or a
line break, which would be dropped. -/
theorem url_correct_iff (writer : SegmentWriter) (base : BaseUrl) (endpoint : String) :
    UrlCorrect writer base endpoint ↔
      RefusedEndpoint endpoint ∨
        (∀ segment ∈ keptSegments base endpoint, hasEscape (utf8 segment) = false) ∧
          ∀ segment ∈ slashSegments endpoint, hasBreak segment = false := by
  have hfails := url_eq_error_iff writer base endpoint
  by_cases hrefused : RefusedEndpoint endpoint
  · obtain ⟨error, herror⟩ := hfails.mpr hrefused
    refine ⟨fun _ => .inl hrefused, fun _ => ⟨hfails, fun url hurl => ?_⟩⟩
    rw [herror] at hurl
    cases hurl
  constructor
  · intro hcorrect
    exact .inr ⟨hcorrect.noEscapes hrefused, hcorrect.noBreaks hrefused⟩
  · rintro (h | ⟨hescapes, hbreaks⟩)
    · exact absurd h hrefused
    · refine ⟨hfails, fun url hurl => ?_⟩
      obtain ⟨parts, hparts, hdecoded⟩ := decoded_segments hrefused hbreaks hurl
      obtain rfl := Except.ok.inj ((providerUrl_eq_ok hrefused).symm.trans hurl)
      refine ⟨rfl, rfl, rfl, rfl, rfl, parts, hparts, ?_⟩
      rw [hdecoded]
      congr 1
      exact List.map_congr_left fun segment hsegment =>
        (decode_eq_self_iff.mpr (hescapes segment hsegment)).symm

/-! ## A base with an escape -/

/-- The bytes that are escaped in a segment of an HTTP URL: controls and blanks, what is not ASCII,
and quotes, number signs, percent signs, slashes, angle brackets, question marks, backslashes,
backticks and braces. -/
def specialPathSegment (b : UInt8) : Bool :=
  decide (b.toNat ≤ 32) || decide (127 ≤ b.toNat) ||
    [34, 35, 37, 47, 60, 62, 63, 92, 96, 123, 125].contains b

theorem escapeSet_specialPathSegment : EscapeSet specialPathSegment where
  percent := rfl
  slash := rfl
  nonAscii := fun b hb => by
    have hbig : decide (127 ≤ b.toNat) = true := decide_eq_true (by omega)
    rw [specialPathSegment, hbig, Bool.or_true, Bool.true_or]

/-- The bytes of a segment that are written. -/
def keptBytes (segment : String) : List UInt8 := (utf8 segment).filter fun b => !isBreak b

theorem keptBytes_of_noBreak {segment : String} (h : hasBreak segment = false) :
    keptBytes segment = utf8 segment := by
  refine List.filter_eq_self.mpr fun b hb => ?_
  rw [hasBreak, List.any_eq_false] at h
  simpa using h b hb

/-- The writer for segments of which none is a dot segment for its tabs and line breaks only. -/
def crateWriter : SegmentWriter where
  set := specialPathSegment
  escapes := escapeSet_specialPathSegment
  extend := fun segments =>
    pathOf ((segments.filter fun segment => !isDotSegment segment).map fun segment =>
    percentEncode specialPathSegment (keptBytes segment))
  extend_written := by
    intro segments hne h
    have hall : ∀ segment ∈ segments, isDotSegment segment = false ∧ hasBreak segment = false := by
      intro segment hsegment
      have hwritten := List.all_eq_true.mp h segment hsegment
      simp only [isWritten, Bool.and_eq_true, Bool.not_eq_true'] at hwritten
      exact ⟨hwritten.1.2, hwritten.2⟩
    have hfilter : (segments.filter fun segment => !isDotSegment segment) = segments :=
      List.filter_eq_self.mpr fun segment hsegment => by rw [(hall segment hsegment).1]; rfl
    rw [hfilter]
    congr 1
    exact List.map_congr_left fun segment hsegment => by
      rw [keptBytes_of_noBreak (hall segment hsegment).2]
      rfl
  extend_noBreaks := by
    intro segments url parts hparts part hpart
    have hkept (segment : String) :
      (decode (utf8 (percentEncode specialPathSegment (keptBytes segment)))).any isBreak
        = false := by
      rw [escapeSet_specialPathSegment.decode_percentEncode, List.any_eq_false]
      intro b hb
      simpa using (List.mem_filter.mp hb).2
    cases hwritten : (segments.filter fun segment => !isDotSegment segment) with
    | nil =>
        rw [hwritten] at hparts
        obtain rfl := Option.some.inj (hparts.symm.trans (pathSegments_pathOf_nil url))
        obtain rfl := List.mem_singleton.mp hpart
        rfl
    | cons segment rest =>
        rw [pathSegments_pathOf url (by simp [hwritten])] at hparts
        · obtain rfl := Option.some.inj hparts
          obtain ⟨segment, -, rfl⟩ := List.mem_map.mp hpart
          exact hkept segment
        · intro text htext
          obtain ⟨segment, -, rfl⟩ := List.mem_map.mp htext
          exact escapeSet_specialPathSegment.noSlash _

/-- `https://proxy.test/team%20a`. -/
def escapedBase : BaseUrl where
  url := ⟨"https", "", none, some (.domain "proxy.test"), none, "/team%20a", none, none⟩
  valid := by decide
  segments := ["team%20a"]
  parsed := by decide
  noDots := by decide
  noBreaks := by decide

/-- A base whose path has an escape in it is not the path that is asked. -/
theorem escaped_base_changed :
    (providerUrl crateWriter escapedBase "v1/listen").toOption.map
      Url.path = some "/team%2520a/v1/listen" ∧
      ¬UrlCorrect crateWriter escapedBase "v1/listen" := by
  refine ⟨by decide +kernel, fun h => ?_⟩
  have hrefused : ¬RefusedEndpoint "v1/listen" := by
    rw [← refused_iff]
    decide +kernel
  have hescape := h.noEscapes hrefused "team%20a" (by decide +kernel)
  exact absurd hescape (by decide +kernel)

end Waveform.Providers
