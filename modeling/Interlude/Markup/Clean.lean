import Interlude.Markup.Token
import Interlude.Text.Pattern
import Interlude.Text.Alphanumeric
import Interlude.Text.Quoted
import Interlude.Url
/-!
# Clean markup

Reduces an HTML fragment to markup that users may write: only known elements with known attributes
stay, links go to known schemes and are not followed, and the content of scripts, styles and frames
disappears. Text is kept.
-/

namespace Interlude.Markup

open Text (Pattern)

/-! ## Values of attributes -/

def isSpaceAscii (c : Char) : Bool := c == ' ' || c == '\t' || c == '\n' || c == '\r' || c == '\x0c'

def paragraph : Pattern :=
  .star (.one fun c => Text.isAlphanumeric c || isSpaceAscii c || "-_',[]!./\\()".toList.contains c)

def tokenList : Pattern :=
  .plus (.one fun c => isSpaceAscii c || Text.isAlphanumeric c || c == '_' || c == '-')

def name : Pattern := .plus (.one fun c => Text.isAlphanumeric c || c == '_' || c == '-')

def integer : Pattern := .plus .digit

def numberOrPercent : Pattern := .seq (.plus .digit) (.opt (.char '%'))

def sign : Pattern := .one fun c => c == '-' || c == '+'

def number : Pattern :=
  .all [.opt sign, .star .digit, .opt (.char '.'), .plus .digit,
    .opt (.all [.one fun c => c == 'e' || c == 'E', .opt sign, .plus .digit])]

/-- A date, possibly with a time and a zone. -/
def dateTime : Pattern :=
  let two := Pattern.digit.times 2
  let minutes := Pattern.seq (.char ':') two
  let fraction := Pattern.opt (.all [.any, .digit, Pattern.digit.upTo 5])
  let zone := Pattern.opt (.all [sign, two, .char ':', two])
  let time := Pattern.all [.one fun c => c == ' ' || c == 'T', two, minutes, .opt minutes, fraction,
    .opt (.char 'Z'), zone]
  .seq (Pattern.digit.times 4)
    (.opt (.all [.char '-', two, .opt (.all [.char '-', two, .opt time])]))

def cellAlign : Pattern := .oneOf ["center", "justify", "left", "right", "char"]
def cellVerticalAlign : Pattern := .oneOf ["baseline", "bottom", "middle", "top"]
def direction : Pattern := .oneOf ["rtl", "ltr"]
def imageAlign : Pattern :=
  .oneOf ["left", "right", "top", "texttop", "middle", "absmiddle", "baseline",
    "bottom", "absbottom"]
def listType : Pattern := .oneOf ["circle", "disc", "square", "a", "i", "1"]
def anything : Pattern := .star (.one fun _ => true)

/-! ## What is allowed -/

/-- The attributes allowed on every element. -/
def globalAttrs : List (String × Pattern) := [
  ("dir", direction),
  ("lang", .within (Pattern.times (.one Char.isAlpha) 2)),
  ("id", .within (.one fun c => c.isAlphanum || c == ':' || c == '-' || c == '_' || c == '.')),
  ("title", paragraph)]

/-- The elements allowed with the global attributes only. -/
def plainElements : List String := [
  "article", "aside", "figure", "section", "summary", "h1", "h2", "h3", "h4", "h5", "h6",
  "hgroup", "br", "div",
  "hr", "p", "span", "wbr", "abbr", "acronym", "cite", "code", "dfn", "em", "figcaption",
    "mark", "s", "samp",
  "strong", "sub", "sup", "var", "b", "i", "pre", "small", "strike", "tt", "u", "rp", "rt", "ruby",
    "dl", "dt", "dd",
  "caption"]

/-- The elements that allow more attributes. -/
def attrElements : List (String × List (String × Pattern)) :=
  let size := [("height", numberOrPercent), ("width", numberOrPercent)]
  let align := [("align", cellAlign), ("valign", cellVerticalAlign)]
  let cell := [("abbr", paragraph), ("colspan", integer), ("rowspan", integer),
    ("headers", tokenList),
    ("scope", .within (.oneOf ["row", "col"])), ("nowrap", anything)] ++ align ++ size
  let column := [("span", integer)] ++ align ++ size
  let edit := [("cite", paragraph), ("datetime", dateTime)]
  [("details", [("open", .opt (.word "open"))]),
   ("blockquote", [("cite", anything)]),
   ("a", [("href", anything)]),
   ("map", [("name", name)]),
   ("area", [("alt", paragraph), ("coords", .seq (.plus (.seq integer (.char ','))) integer),
     ("href", anything), ("rel", tokenList),
     ("shape", .oneOf ["default", "circle", "rect", "poly"])]),
   ("img", [("usemap", .seq (.char '#') name), ("align", imageAlign), ("alt", paragraph),
     ("src", anything)] ++ size),
   ("q", [("cite", anything)]),
   ("time", [("datetime", dateTime)]),
   ("bdi", [("dir", direction)]),
   ("bdo", [("dir", direction)]),
   ("del", edit),
   ("ins", edit),
   ("ol", [("type", listType)]),
   ("ul", [("type", listType)]),
   ("li", [("type", listType), ("value", integer)]),
   ("table", [("summary", paragraph)] ++ size),
   ("col", column),
   ("colgroup", column),
   ("thead", align),
   ("tr", align),
   ("td", cell),
   ("th", cell),
   ("tbody", align),
   ("tfoot", align),
   ("meter", ["value", "min", "max", "low", "high", "optimum"].map (·, number)),
   ("progress", [("value", number), ("max", number)])]

/-- The attributes of an allowed element. -/
def element? (name : String) : Option (List (String × Pattern)) :=
  if plainElements.contains name then some [] else attrElements.lookup name

/-- The allowed elements that say nothing without an attribute. -/
def needsAttr (name : String) : Bool :=
  ["a", "area", "img", "map", "bdo", "meter", "progress"].contains name

/-- The elements whose content goes with them. -/
def hidesContent (name : String) : Bool :=
  ["frame", "frameset", "iframe", "noembed", "noframes", "noscript", "nostyle", "object",
    "script", "style", "title"].contains name

/-! ## Links -/

/-- A link that may stay: to another place of the site, or with a known scheme. -/
def link? (raw : String) : Option String :=
  let s := Text.trim raw
  if s.toList.any (fun c => c == ' ' || c == '\t' || c == '\n') then none
  else
    match Url.read? s with
    | none => none
    | some u =>
      if u.scheme.isEmpty then (if u.text.isEmpty then none else some u.text)
      else if ["mailto", "http", "https"].contains u.scheme then some u.text
      else none

/-- The attribute of an element that is a link. -/
def linkAttr (element : String) : String :=
  if ["a", "area", "base", "link"].contains element then "href"
  else if ["blockquote", "del", "ins", "q"].contains element then "cite"
  else if ["audio", "embed", "iframe", "img", "input", "script", "source", "track",
    "video"].contains element then "src"
  else ""

/-- Keeps a link that may stay, and every other attribute. -/
def checkLink (element : String) (a : Attr) : Option Attr :=
  if a.key == linkAttr element then (link? a.val).map fun val => { a with val } else some a

/-- Marks the link of a reference as one not to follow. -/
def noFollow (element : String) (attrs : List Attr) : List Attr :=
  if linkAttr element == "href" && attrs.any (·.key == "href") then
    if attrs.any (·.key == "rel") then
      attrs.map fun a =>
        if a.key == "rel" &&
          (Text.index? a.val "nofollow").isNone then { a with val := a.val ++ " nofollow" } else a
    else attrs ++ [⟨"rel", "nofollow"⟩]
  else attrs

/-- Whether an attribute of an element may stay. -/
def allows (own : List (String × Pattern)) (a : Attr) : Bool :=
  (own ++ globalAttrs).any fun (key, p) => key == a.key && p.accepts a.val

/-- The attributes of an element that stay. -/
def cleanAttrs (element : String) (own : List (String × Pattern)) (attrs : List Attr) : List Attr :=
  noFollow element ((attrs.filter (allows own)).filterMap (checkLink element))

/-! ## Writing -/

/-- The bytes of a text as they stand in HTML. -/
def htmlBytes (bs : List Nat) : List Nat :=
  bs.flatMap fun n => (Text.htmlChar (Char.ofNat n)).map Char.toNat

/-- A link with its query encoded anew, the keys as they stand in HTML. `none` if the query is not
validly encoded. -/
def withCleanQuery? (s : String) : Option String := do
  let u ← Url.read? s
  let pairs ← Url.pairs? u.query
  return { u with query := Url.queryText (pairs.map fun (key, value?) =>
    (htmlBytes key, value?)) : Url }.text

/-- A link between quotes. The ampersands of its query stay as they are. -/
def linkText (s : String) : String :=
  match withCleanQuery? s with
  | some t => String.ofList (t.toList.flatMap fun c => if c == '&' then [c] else Text.htmlChar c)
  | none => Text.escapeHtml s

/-- An attribute of an element as markup. -/
def attrText (element : String) (a : Attr) : String :=
  let isLink := linkAttr element != "" && (a.key == "href" || a.key == "src")
  " " ++ a.key ++ "=\"" ++ (if isLink then linkText a.val else Text.escapeHtml a.val) ++ "\""

/-- The name and attributes of a tag as markup. -/
def tagText (name : String) (attrs : List Attr) : String :=
  "<" ++ name ++ String.join (attrs.map (attrText name))

/-! ## Cleaning -/

/-- Where cleaning stands: how many elements around hide their content, the end tags still to
drop, and the element that began last. -/
structure CleanState where
  hidden : Int := 0
  skipping : Bool := false
  dropped : List String := []
  latest : String := ""

def isProgram (name : String) : Bool := name == "script" || name == "style"

/-- What stays of a token, and the state after it. -/
def cleanToken (st : CleanState) : Token → String × CleanState
  | .comment => ("", st)
  | .text s =>
    if st.skipping || isProgram st.latest then ("", st) else (Text.escapeHtml s, st)
  | .start name attrs =>
    let st := { st with latest := name }
    if isProgram name then ("", st)
    else
      match element? name with
      | none =>
        if hidesContent name then ("", { st with hidden := st.hidden + 1, skipping := true })
          else ("", st)
      | some own =>
        let attrs := cleanAttrs name own attrs
        if attrs.isEmpty && needsAttr name then ("", { st with dropped := name :: st.dropped })
        else (if st.skipping then "" else tagText name attrs ++ ">", st)
  | .selfClosing name attrs =>
    if isProgram name then ("", st)
    else
      match element? name with
      | none => ("", st)
      | some own =>
        let attrs := cleanAttrs name own attrs
        if attrs.isEmpty && needsAttr name then ("", st)
        else (if st.skipping then "" else tagText name attrs ++ "/>", st)
  | .stop name =>
    let st := if st.latest == name then { st with latest := "" } else st
    if isProgram name then ("", st)
    else if st.dropped.head? == some name then ("", { st with dropped := st.dropped.drop 1 })
    else if (element? name).isNone then
      if hidesContent name then
        let left := st.hidden - 1
        ("", { st with hidden := left, skipping := if left = 0 then false else st.skipping })
      else ("", st)
    else (if st.skipping then "" else "</" ++ name ++ ">", st)

def cleanFrom (st : CleanState) : List Token → List String
  | [] => []
  | t :: rest =>
    let (s, st) := cleanToken st t
    s :: cleanFrom st rest

/-- A fragment reduced to what users may write; blank text is kept as it is. -/
def clean (s : String) : String :=
  if (Text.trim s).isEmpty then s else String.join (cleanFrom {} (tokens s))

end Interlude.Markup
