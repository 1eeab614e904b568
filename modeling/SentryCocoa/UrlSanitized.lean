import SentryCocoa.Library.PercentDecoding

/-! The URL of a request without credentials, query and fragment, as it stands in the description
and the data of spans and in breadcrumbs. The user name and the password are replaced in the
components, and the text is cut at the first separator. -/
namespace SentryCocoa.Urls
open SentryCocoa.Library.PercentEncoding

abbrev Text := List Char

def isUnreserved (c : Char) : Bool := c.isAlphanum || c ∈ "-._~".toList

def isSubDelim (c : Char) : Bool := c ∈ "!$&'()*+,;=".toList

def urlUserAllowed (c : Char) : Bool := isUnreserved c || isSubDelim c

def urlPasswordAllowed (c : Char) : Bool := urlUserAllowed c || c = ':'

/-- With what an IP literal has. -/
def urlHostAllowed (c : Char) : Bool := urlUserAllowed c || c ∈ ":[]".toList

def urlPathAllowed (c : Char) : Bool := urlUserAllowed c || c ∈ ":@/".toList

def urlQueryAllowed (c : Char) : Bool := urlPathAllowed c || c = '?'

def urlSchemeAllowed (c : Char) : Bool := c.isAlphanum || c ∈ "+-.".toList

/-- The percent encoded components. -/
structure URLComponents where
  scheme : Option Text
  user : Option Text
  password : Option Text
  host : Option Text
  port : Option Text
  path : Text
  query : Option Text
  fragment : Option Text

/-- A URL of the grammar of RFC 3986 with the components that it is parsed into. -/
structure URL where
  components : URLComponents
  scheme : ∀ text, components.scheme = some text → text.all urlSchemeAllowed = true
  user : ∀ text, components.user = some text → isEncoded urlUserAllowed text = true
  password : ∀ text, components.password = some text → isEncoded urlPasswordAllowed text = true
  host : ∀ text, components.host = some text → isEncoded urlHostAllowed text = true
  port : ∀ text, components.port = some text → text.all Char.isDigit = true
  path : isEncoded urlPathAllowed components.path = true
  query : ∀ text, components.query = some text → isEncoded urlQueryAllowed text = true
  fragment : ∀ text, components.fragment = some text → isEncoded urlQueryAllowed text = true
  /-- A password follows a user name, which may be empty. -/
  userinfo : components.password.isSome = true → components.user.isSome = true
  authority : components.user.isSome = true ∨ components.port.isSome = true →
    components.host.isSome = true
  pathAbEmpty : components.host.isSome = true →
    components.path = [] ∨ components.path.head? = some '/'
  pathAbsolute : components.host.isSome = false → ¬ ['/', '/'] <+: components.path

namespace URLComponents

variable (components : URLComponents)

def hasAuthority : Bool :=
  components.user.isSome || components.password.isSome || components.host.isSome ||
    components.port.isSome

/-- A component with the separator in front of it. -/
def after (separator : Char) : Option Text → Text
  | none => []
  | some text => separator :: text

def userinfo : Text :=
  match components.user with
  | none => []
  | some user => user ++ after ':' components.password ++ ['@']

def authority : Text :=
  components.userinfo ++ components.host.getD [] ++ after ':' components.port

def schemePart : Text :=
  match components.scheme with
  | none => []
  | some scheme => scheme ++ [':']

/-- The text before query and fragment. -/
def hierarchy : Text :=
  components.schemePart ++
    (if components.hasAuthority then ['/', '/'] ++ components.authority else []) ++
    components.path

/-- Absent if the path does not go with what stands before it. -/
def string : Option Text :=
  if components.hasAuthority then
    if components.path = [] ∨ components.path.head? = some '/' then
      some (components.hierarchy ++ after '?' components.query ++ after '#' components.fragment)
    else none
  else if ['/', '/'] <+: components.path then none
  else some (components.hierarchy ++ after '?' components.query ++ after '#' components.fragment)

end URLComponents

structure UrlSanitized where
  components : Option URLComponents

namespace UrlSanitized

def SENSITIVE_DATA_SUBSTITUTE : Text := "[Filtered]".toList

/-- Setting a component encodes the text. -/
def init (url : URL) : UrlSanitized where
  components := some { url.components with
    user := url.components.user.map fun _ =>
      encode urlUserAllowed SENSITIVE_DATA_SUBSTITUTE
    password := url.components.password.map fun _ =>
      encode urlPasswordAllowed SENSITIVE_DATA_SUBSTITUTE }

def removingPercentEncoding (text : Text) : Option Text := decode text

def firstIndex (text : Text) (separator : Char) : Option Nat := text.findIdx? (· = separator)

/-- The text up to the first question mark, or the first number sign if there is none. -/
def cut (result : Text) : Text :=
  match (firstIndex result '?').or (firstIndex result '#') with
  | some index => result.take index
  | none => result

def sanitizedUrl (sanitized : UrlSanitized) : Option Text := do
  let result ← sanitized.components.bind URLComponents.string
  removingPercentEncoding (cut result)

end UrlSanitized

/-- The part of the fragment that is left when the text is cut at a question mark in it. -/
def leakedFragment (url : URL) : Option Text :=
  match url.components.query, url.components.fragment with
  | none, some fragment =>
    if '?' ∈ fragment then some (fragment.takeWhile (· ≠ '?')) else none
  | _, _ => none

/-- The URLs differ in credentials, query and fragment only. -/
structure SameOrigin (first second : URL) : Prop where
  scheme : first.components.scheme = second.components.scheme
  user : first.components.user.isSome = second.components.user.isSome
  password : first.components.password.isSome = second.components.password.isSome
  host : first.components.host = second.components.host
  port : first.components.port = second.components.port
  path : first.components.path = second.components.path

/-! ## Characters -/

theorem lt_of_isAlphanum {c : Char} (h : c.isAlphanum = true) : c.toNat < 128 := by
  change (decide (65 ≤ c.val ∧ c.val ≤ 90) ||
    (decide (97 ≤ c.val) && decide (c.val ≤ 122)) ||
    (decide (48 ≤ c.val) && decide (c.val ≤ 57))) = true at h
  simp only [Bool.or_eq_true, Bool.and_eq_true, decide_eq_true_eq, UInt32.le_iff_toNat_le] at h
  have hcode : c.toNat = c.val.toNat := rfl
  change ((65 ≤ c.val.toNat ∧ c.val.toNat ≤ 90) ∨ (97 ≤ c.val.toNat ∧ c.val.toNat ≤ 122)) ∨
    (48 ≤ c.val.toNat ∧ c.val.toNat ≤ 57) at h
  omega

theorem isPlain_of_scheme {c : Char} (h : urlSchemeAllowed c = true) : IsPlain c := by
  rw [urlSchemeAllowed, Bool.or_eq_true, decide_eq_true_eq] at h
  rcases h with h | h
  · exact ⟨lt_of_isAlphanum h, fun heq => by rw [heq] at h; exact absurd h (by decide)⟩
  · have hall : ∀ c ∈ "+-.".toList, IsPlain c := by simp [IsPlain]
    exact hall c h

theorem isPlain_of_isDigit {c : Char} (h : c.isDigit = true) : IsPlain c := by
  refine ⟨lt_of_isAlphanum (by rw [Char.isAlphanum, h, Bool.or_true]), fun heq => ?_⟩
  rw [heq] at h
  exact absurd h (by decide)

/-! ## Texts -/

/-- The components that the text is made of. -/
def filtered (url : URL) : URLComponents :=
  { url.components with
    user := url.components.user.map fun _ => encode urlUserAllowed
      UrlSanitized.SENSITIVE_DATA_SUBSTITUTE
    password := url.components.password.map fun _ => encode urlPasswordAllowed
      UrlSanitized.SENSITIVE_DATA_SUBSTITUTE }

theorem hasAuthority_filtered (url : URL) :
    (filtered url).hasAuthority = url.components.host.isSome := by
  have hauthority := url.authority
  have huserinfo := url.userinfo
  rw [URLComponents.hasAuthority, filtered]
  simp only [Option.isSome_map]
  cases hhost : url.components.host with
  | some host => simp
  | none =>
    cases huser : url.components.user with
    | some user => simp [huser, hhost] at hauthority
    | none =>
      cases hpassword : url.components.password with
      | some password => simp [huser, hpassword] at huserinfo
      | none =>
        cases hport : url.components.port with
        | some port => simp [hport, hhost] at hauthority
        | none => rfl

theorem string_filtered (url : URL) : (filtered url).string =
    some ((filtered url).hierarchy ++ URLComponents.after '?' url.components.query ++
      URLComponents.after '#' url.components.fragment) := by
  rw [URLComponents.string, hasAuthority_filtered]
  by_cases hhost : url.components.host.isSome = true
  · have hpath : (filtered url).path = [] ∨ (filtered url).path.head? = some '/' :=
      url.pathAbEmpty hhost
    rw [if_pos hhost, if_pos hpath]
    rfl
  · have hpath : ¬ ['/', '/'] <+: (filtered url).path :=
      url.pathAbsolute ((Bool.not_eq_true _).mp hhost)
    rw [if_neg hhost, if_neg hpath]
    rfl

theorem mem_after {separator c : Char} {component : Option Text} :
    c ∈ URLComponents.after separator component ↔
      ∃ text, component = some text ∧ (c = separator ∨ c ∈ text) := by
  cases component with
  | none => simp [URLComponents.after]
  | some text => simp [URLComponents.after]

/-- The separators of query and fragment are not in front of them. -/
theorem separator_notMem_hierarchy (url : URL) {c : Char} (hc : c = '?' ∨ c = '#') :
    c ∉ (filtered url).hierarchy := by
  have hdigit : digitValue c = none := by rcases hc with rfl | rfl <;> decide
  have hpercent : c ≠ '%' := by rcases hc with rfl | rfl <;> decide
  have hseparators : c ∉ ['/', '/'] ∧ c ≠ ':' ∧ c ≠ '@' := by rcases hc with rfl | rfl <;> decide
  have hclass : urlSchemeAllowed c = false ∧ urlHostAllowed c = false ∧
      urlPathAllowed c = false ∧ c.isDigit = false := by
    rcases hc with rfl | rfl <;> decide
  have hsubstitutes : c ∉ encode urlUserAllowed UrlSanitized.SENSITIVE_DATA_SUBSTITUTE ∧
      c ∉ encode urlPasswordAllowed UrlSanitized.SENSITIVE_DATA_SUBSTITUTE := by
    rcases hc with rfl | rfl <;> decide
  have hscheme : c ∉ (filtered url).schemePart := by
    unfold URLComponents.schemePart
    split
    · exact List.not_mem_nil
    · next scheme heq =>
      have hall := List.all_eq_true.1 (url.scheme scheme heq)
      rw [List.mem_append, List.mem_singleton, not_or]
      exact ⟨fun hmem => absurd (hall c hmem) (by rw [hclass.1]; decide), hseparators.2.1⟩
  have huserinfo : c ∉ (filtered url).userinfo := by
    unfold URLComponents.userinfo filtered
    cases url.components.user with
    | none => exact List.not_mem_nil
    | some user =>
      simp only [Option.map_some, List.mem_append, mem_after, List.mem_singleton, not_or]
      refine ⟨⟨hsubstitutes.1, ?_⟩, hseparators.2.2⟩
      rintro ⟨text, htext, hmem⟩
      obtain ⟨-, -, rfl⟩ := Option.map_eq_some_iff.1 htext
      exact hmem.elim hseparators.2.1 hsubstitutes.2
  have hauthority : c ∉ (filtered url).authority := by
    rw [URLComponents.authority, List.mem_append, List.mem_append, mem_after, not_or, not_or]
    refine ⟨⟨huserinfo, ?_⟩, ?_⟩
    · change c ∉ url.components.host.getD []
      cases hhost : url.components.host with
      | none => exact List.not_mem_nil
      | some host => exact notMem_of_isEncoded hclass.2.1 hpercent hdigit (url.host host hhost)
    · rintro ⟨port, hport, heq | hmem⟩
      · exact hseparators.2.1 heq
      · have hall := List.all_eq_true.1 (url.port port hport)
        exact absurd (hall c hmem) (by rw [hclass.2.2.2]; decide)
  rw [URLComponents.hierarchy, List.mem_append, List.mem_append, not_or, not_or]
  refine ⟨⟨hscheme, ?_⟩, notMem_of_isEncoded hclass.2.2.1 hpercent hdigit url.path⟩
  split
  · rw [List.mem_append, not_or]
    exact ⟨hseparators.1, hauthority⟩
  · exact List.not_mem_nil

theorem firstIndex_append {before after : Text} {c : Char} (h : c ∉ before) :
    UrlSanitized.firstIndex (before ++ c :: after) c = some before.length := by
  unfold UrlSanitized.firstIndex
  rw [List.findIdx?_append, List.findIdx?_eq_none_iff.2 fun other hother => by
    rw [decide_eq_false_iff_not]
    exact fun heq => h (heq ▸ hother), List.findIdx?_cons]
  simp

theorem firstIndex_eq_none {text : Text} {c : Char} (h : c ∉ text) :
    UrlSanitized.firstIndex text c = none :=
  List.findIdx?_eq_none_iff.2 fun other hother => by
    rw [decide_eq_false_iff_not]
    exact fun heq => h (heq ▸ hother)

theorem cut_question {before after : Text} (h : '?' ∉ before) :
    UrlSanitized.cut (before ++ '?' :: after) = before := by
  rw [UrlSanitized.cut, firstIndex_append h, Option.some_or]
  exact List.take_left

theorem cut_number {before after : Text} (h : '#' ∉ before)
    (hquestion : '?' ∉ before ++ '#' :: after) :
    UrlSanitized.cut (before ++ '#' :: after) = before := by
  rw [UrlSanitized.cut, firstIndex_eq_none hquestion, firstIndex_append h, Option.none_or]
  exact List.take_left

theorem cut_eq_self {text : Text} (hquestion : '?' ∉ text) (hnumber : '#' ∉ text) :
    UrlSanitized.cut text = text := by
  rw [UrlSanitized.cut, firstIndex_eq_none hquestion, firstIndex_eq_none hnumber]
  rfl

/-- What is left is the text before query and fragment, and what leaks of the fragment. -/
theorem cut_string (url : URL) : UrlSanitized.cut ((filtered url).hierarchy ++
      URLComponents.after '?' url.components.query ++
      URLComponents.after '#' url.components.fragment) =
    (filtered url).hierarchy ++ URLComponents.after '#' (leakedFragment url) := by
  have hquestion := separator_notMem_hierarchy url (.inl rfl)
  have hnumber := separator_notMem_hierarchy url (.inr rfl)
  unfold leakedFragment
  cases url.components.query with
  | some query =>
    simp only [URLComponents.after, List.append_nil, List.append_assoc, List.cons_append]
    exact cut_question hquestion
  | none =>
    cases url.components.fragment with
    | none =>
      simp only [URLComponents.after, List.append_nil]
      exact cut_eq_self hquestion hnumber
    | some fragment =>
      simp only [URLComponents.after, List.append_nil]
      by_cases hmem : '?' ∈ fragment
      · rw [if_pos hmem]
        obtain ⟨before, rest, rfl, hbefore⟩ := List.eq_append_cons_of_mem hmem
        have hall : ∀ c ∈ before, decide (c ≠ '?') = true := fun c hc =>
          decide_eq_true fun heq => hbefore (heq ▸ hc)
        have htake : (before ++ '?' :: rest).takeWhile (· ≠ '?') = before := by
          rw [List.takeWhile_append_of_pos hall, List.takeWhile_cons_of_neg (by simp),
            List.append_nil]
        rw [htake, ← List.cons_append, ← List.append_assoc]
        apply cut_question
        simpa using ⟨hquestion, hbefore⟩
      · rw [if_neg hmem]
        change _ = _ ++ []
        rw [List.append_nil]
        apply cut_number hnumber
        simpa using ⟨hquestion, hmem⟩

theorem sanitizedUrl_eq (url : URL) : (UrlSanitized.init url).sanitizedUrl =
    decode ((filtered url).hierarchy ++ URLComponents.after '#' (leakedFragment url)) := by
  have hstring : (UrlSanitized.init url).components.bind URLComponents.string = _ :=
    string_filtered url
  rw [UrlSanitized.sanitizedUrl, hstring, ← cut_string]
  rfl

theorem filtered_hierarchy_eq {first second : URL} (h : SameOrigin first second) :
    (filtered first).hierarchy = (filtered second).hierarchy := by
  have hmap (text : Text) {component component' : Option Text}
      (hsome : component.isSome = component'.isSome) :
      component.map (fun _ => text) = component'.map fun _ => text := by
    cases component <;> cases component' <;> first | rfl | cases hsome
  have hcomponents : { filtered first with query := none, fragment := none } =
      { filtered second with query := none, fragment := none } := by
    simp only [filtered, h.scheme, h.host, h.port, h.path, hmap _ h.user, hmap _ h.password]
  exact (congrArg URLComponents.hierarchy hcomponents : URLComponents.hierarchy _ = _)

/-! ## Decoding -/

theorem decodable_substitute {allowed : Char → Bool} (hpercent : allowed '%' = false) :
    Decodable (encode allowed UrlSanitized.SENSITIVE_DATA_SUBSTITUTE) := by
  rw [Decodable, decode_encode_text hpercent]
  rfl

theorem isPlain_separator : IsPlain '/' ∧ IsPlain ':' ∧ IsPlain '@' ∧ IsPlain '#' := by
  unfold IsPlain
  decide

/-- After a part that ends with a separator the rest is decoded on its own. -/
theorem decodable_append_separator {first second : Text} {c : Char} (hfirst : Decodable first)
    (hc : IsPlain c) : Decodable (first ++ [c] ++ second) ↔ Decodable second := by
  rw [List.append_assoc, List.singleton_append, decodable_append_cons hfirst.isSome_bytes hc]
  exact and_iff_right hfirst

theorem decodable_schemePart_append (url : URL) (rest : Text) :
    Decodable ((filtered url).schemePart ++ rest) ↔ Decodable rest := by
  unfold URLComponents.schemePart
  split
  · exact Iff.rfl
  · next scheme heq =>
    have hall := List.all_eq_true.1 (url.scheme scheme heq)
    exact decodable_append_separator
      (decodable_of_plain fun c hc => isPlain_of_scheme (hall c hc)) isPlain_separator.2.1

theorem decodable_userinfo_append (url : URL) (rest : Text) :
    Decodable ((filtered url).userinfo ++ rest) ↔ Decodable rest := by
  unfold URLComponents.userinfo filtered
  cases url.components.user with
  | none => exact Iff.rfl
  | some user =>
    refine decodable_append_separator ?_ isPlain_separator.2.2.1
    have huser : Decodable (encode urlUserAllowed UrlSanitized.SENSITIVE_DATA_SUBSTITUTE) :=
      decodable_substitute (by decide)
    cases url.components.password with
    | none =>
      change Decodable (_ ++ [])
      rw [List.append_nil]
      exact huser
    | some password =>
      exact (decodable_append_cons huser.isSome_bytes isPlain_separator.2.1).2
        ⟨huser, decodable_substitute (by decide)⟩

/-- Behind the host only the path matters. -/
theorem decodable_port_append (url : URL) {rest : Text}
    (hrest : ∀ c, rest.head? = some c → IsPlain c) :
    Decodable (URLComponents.after ':' url.components.port ++ rest) ↔ Decodable rest := by
  cases hport : url.components.port with
  | none => exact Iff.rfl
  | some port =>
    have hall := List.all_eq_true.1 (url.port port hport)
    have hdigits : Decodable port := decodable_of_plain fun c hc => isPlain_of_isDigit (hall c hc)
    rw [URLComponents.after, List.cons_append, decodable_cons isPlain_separator.2.1,
      decodable_append hdigits.isSome_bytes hrest]
    exact and_iff_right hdigits

theorem decodable_hierarchy_iff (url : URL) : Decodable (filtered url).hierarchy ↔
    Decodable (url.components.host.getD []) ∧ Decodable url.components.path := by
  rw [URLComponents.hierarchy, hasAuthority_filtered, List.append_assoc,
    decodable_schemePart_append]
  cases hhost : url.components.host with
  | none => exact (and_iff_right decodable_nil).symm
  | some host =>
    have hpath : ∀ c, url.components.path.head? = some c → IsPlain c := by
      intro c hc
      rcases url.pathAbEmpty (by rw [hhost]; rfl) with hnil | hslash
      · rw [hnil] at hc
        cases hc
      · rw [hslash] at hc
        cases hc
        exact isPlain_separator.1
    have hport : ∀ c, (URLComponents.after ':' url.components.port ++
        url.components.path).head? = some c → IsPlain c := by
      intro c hc
      cases hsome : url.components.port with
      | none =>
        rw [hsome] at hc
        exact hpath c hc
      | some port =>
        rw [hsome] at hc
        cases hc
        exact isPlain_separator.2.1
    have hauthority : (filtered url).authority = (filtered url).userinfo ++ host ++
        URLComponents.after ':' url.components.port := by
      rw [URLComponents.authority]
      change _ ++ url.components.host.getD [] ++ _ = _
      rw [hhost]
      rfl
    rw [if_pos Option.isSome_some, hauthority, List.append_assoc, List.cons_append, List.cons_append,
      List.nil_append, decodable_cons isPlain_separator.1, decodable_cons isPlain_separator.1,
      List.append_assoc, List.append_assoc, decodable_userinfo_append]
    change Decodable (host ++ (_ ++ url.components.path)) ↔ _
    rw [decodable_append (isSome_bytes_of_isEncoded (url.host host hhost)) hport]
    exact and_congr_right fun _ => decodable_port_append url hpath

theorem decode_append_number {before fragment : Text} (hbytes : (bytes before).isSome) :
    decode (before ++ '#' :: fragment) =
      (decode before).bind fun text => (decode fragment).map fun rest => text ++ '#' :: rest := by
  apply Option.ext
  intro decoded
  rw [decode_append_cons hbytes isPlain_separator.2.2.2.1 isPlain_separator.2.2.2.2]
  simp only [Option.bind_eq_some_iff, Option.map_eq_some_iff]
  constructor
  · rintro ⟨text, rest, htext, hrest, rfl⟩
    exact ⟨text, htext, rest, hrest, rfl⟩
  · rintro ⟨text, htext, rest, hrest, rfl⟩
    exact ⟨text, rest, htext, hrest, rfl⟩

theorem decode_append_leak {before : Text} (hbytes : (bytes before).isSome) (leak : Option Text) :
    decode (before ++ URLComponents.after '#' leak) = (decode before).bind fun text =>
      match leak.map decode with
      | none => some text
      | some decoded => decoded.map fun rest => text ++ '#' :: rest := by
  cases leak with
  | none =>
    change decode (before ++ []) = _
    rw [List.append_nil]
    exact (Option.bind_fun_some (decode before)).symm
  | some fragment => exact decode_append_number hbytes

/-- What leaks can be seen in the text. -/
theorem decode_append_leak_eq_iff {before : Text} (hbytes : (bytes before).isSome)
    (first second : Option Text) :
    decode (before ++ URLComponents.after '#' first) =
        decode (before ++ URLComponents.after '#' second) ↔
      first.map decode = second.map decode ∨ ¬ Decodable before := by
  rw [decode_append_leak hbytes, decode_append_leak hbytes, Decodable]
  cases decode before with
  | none => exact iff_of_true rfl (.inr Bool.false_ne_true)
  | some text =>
    have hsome : ¬ ¬ (some text).isSome = true := not_not_intro rfl
    rw [or_iff_left hsome, Option.bind_some, Option.bind_some]
    rcases first.map decode with _ | _ | rest <;> rcases second.map decode with _ | _ | rest' <;>
      simp

theorem isSome_bytes_hierarchy (url : URL) : (bytes (filtered url).hierarchy).isSome := by
  have hscheme := (decodable_schemePart_append url []).2 decodable_nil
  have huserinfo := (decodable_userinfo_append url []).2 decodable_nil
  have hport := (@decodable_port_append url [] fun _ h => nomatch h).2 decodable_nil
  rw [List.append_nil] at hscheme huserinfo hport
  have hhost : (bytes (url.components.host.getD [])).isSome := by
    cases hsome : url.components.host with
    | none => rfl
    | some host => exact isSome_bytes_of_isEncoded (url.host host hsome)
  have hauthority : (bytes (filtered url).authority).isSome :=
    isSome_bytes_append (isSome_bytes_append huserinfo.isSome_bytes hhost) hport.isSome_bytes
  have hslashes : (bytes ['/', '/']).isSome := by decide
  rw [URLComponents.hierarchy]
  refine isSome_bytes_append (isSome_bytes_append hscheme.isSome_bytes ?_)
    (isSome_bytes_of_isEncoded url.path)
  split
  · exact isSome_bytes_append hslashes hauthority
  · rfl

/-- `https://sentry.io/callback` with a fragment. -/
def callback (fragment : Option Text)
    (h : ∀ text, fragment = some text → isEncoded urlQueryAllowed text = true) : URL where
  components := {
    scheme := some "https".toList
    user := none
    password := none
    host := some "sentry.io".toList
    port := none
    path := "/callback".toList
    query := none
    fragment := fragment }
  scheme _ h := by
    cases h
    decide
  user _ h := nomatch h
  password _ h := nomatch h
  host _ h := by
    cases h
    decide
  port _ h := nomatch h
  path := (by decide : isEncoded urlPathAllowed "/callback".toList = true)
  query _ h := nomatch h
  fragment := h
  userinfo h := nomatch h
  authority _ := rfl
  pathAbEmpty _ := .inr rfl
  pathAbsolute h := nomatch h

def withoutFragment : URL := callback none fun _ h => nomatch h

def withToken : URL := callback (some "token=secret?state".toList) fun _ h => by
  cases h
  decide

theorem sameOrigin_callback : SameOrigin withoutFragment withToken :=
  ⟨rfl, rfl, rfl, rfl, rfl, rfl⟩

end SentryCocoa.Urls
