/-
The vocabulary of HTML, and text that is safe inside it.

Every tag that is written is void, closed in its opening tag and without
children, or normal, with a closing tag; other tags are unknown. An attribute
is written only if it is in the tables below or is a data or accessibility
attribute.

* `Html.kind?`: whether a tag is known, and how it is closed;
* `Html.isAllowed`: whether an attribute may be written;
* `Html.escape`: text inside a quoted attribute value;
* `Html.comment`: text as a comment.
-/
namespace PageTree

namespace Html

/-! ### Tags -/

/-- How the element of a known tag is closed. -/
inductive TagKind where
  /-- By a closing tag, after its children. -/
  | normal
  /-- In its opening tag; it has no children. -/
  | void
deriving DecidableEq

/-- Tags of elements without children. -/
def voidTags : List String := [
  "area", "base", "br", "col", "embed", "hr", "img", "input", "link", "meta", "param", "source",
  "track", "wbr"]

/-- Tags of elements with a closing tag. -/
def normalTags : List String := [
  "a", "abbr", "address", "article", "aside", "audio", "b", "bdi", "bdo", "blockquote", "body",
  "button", "canvas", "caption", "cite", "code", "colgroup", "data", "datalist", "dd", "del",
  "details", "dfn", "dialog", "div", "dl", "dt", "em", "fieldset", "figcaption", "figure",
  "footer", "form", "h1", "h2", "h3", "h4", "h5", "h6", "head", "header", "hgroup", "html", "i",
  "iframe", "ins", "kbd", "label", "legend", "li", "main", "map", "mark", "menu", "meter", "nav",
  "noscript", "object", "ol", "optgroup", "option", "output", "p", "picture", "pre", "progress",
  "q", "rp", "rt", "ruby", "s", "samp", "script", "search", "section", "select", "slot", "small",
  "span", "strong", "style", "sub", "summary", "sup", "table", "tbody", "td", "template",
  "textarea", "tfoot", "th", "thead", "time", "title", "tr", "u", "ul", "var", "video", "svg",
  "path", "circle", "rect", "line", "polyline", "polygon", "g", "use", "defs", "symbol"]

/-- The kind of a tag, if it is known. -/
def kind? (tag : String) : Option TagKind :=
  if tag ∈ voidTags then some .void
  else if tag ∈ normalTags then some .normal
  else none

/-! ### Attributes -/

/-- Attributes of every element. -/
def globalAttributes : List String := [
  "accesskey", "autocapitalize", "autofocus", "class", "contenteditable", "dir", "draggable",
  "enterkeyhint", "hidden", "id", "inert", "inputmode", "is", "itemid", "itemprop", "itemref",
  "itemscope", "itemtype", "lang", "nonce", "part", "popover", "role", "slot", "spellcheck",
  "style", "tabindex", "title", "translate"]

/-- Attributes of links and of resources that are loaded. -/
def linkAttributes : List String := [
  "href", "hreflang", "target", "rel", "download", "ping", "referrerpolicy", "media", "type",
  "src", "srcset", "sizes", "alt", "width", "height", "loading", "decoding", "fetchpriority",
  "crossorigin", "integrity", "as", "async", "defer", "nomodule", "usemap", "ismap"]

/-- Attributes of the metadata of a page. -/
def metadataAttributes : List String := [
  "charset", "content", "http-equiv", "name", "property", "manifest"]

/-- Attributes of forms and their fields. -/
def formAttributes : List String := [
  "accept", "accept-charset", "action", "autocomplete", "checked", "cols", "dirname", "disabled",
  "enctype", "for", "form", "formaction", "formenctype", "formmethod", "formnovalidate",
  "formtarget", "list", "max", "maxlength", "method", "min", "minlength", "multiple",
  "novalidate", "pattern", "placeholder", "readonly", "required", "rows", "selected", "size",
  "step", "value", "wrap", "label", "high", "low", "optimum"]

/-- Attributes of tables. -/
def tableAttributes : List String := [
  "colspan", "rowspan", "headers", "scope", "span"]

/-- Attributes of sound and video. -/
def mediaAttributes : List String := [
  "autoplay", "controls", "loop", "muted", "playsinline", "poster", "preload", "kind", "srclang",
  "default"]

/-- Attributes of embedded content. -/
def embeddingAttributes : List String := [
  "allow", "allowfullscreen", "sandbox", "srcdoc", "data", "coords", "shape"]

/-- Attributes of elements in running text and of those that react. -/
def textAttributes : List String := [
  "cite", "datetime", "open", "reversed", "start", "summary", "abbr", "high"]

/-- Attributes of drawings. -/
def drawingAttributes : List String := [
  "viewbox", "viewBox", "xmlns", "fill", "stroke", "stroke-width", "d", "cx", "cy", "r", "x", "y",
  "x1", "y1", "x2", "y2", "points", "transform"]

/-- All attributes in the tables. -/
def knownAttributes : List String :=
  globalAttributes ++ linkAttributes ++ metadataAttributes ++ formAttributes ++
    tableAttributes ++ mediaAttributes ++ embeddingAttributes ++ textAttributes ++ drawingAttributes

/-- Whether an attribute may be written: it is in the tables, or its name
starts like that of a data or an accessibility attribute. -/
def isAllowed (name : String) : Bool :=
  name ∈ knownAttributes || "data-".toList.isPrefixOf name.toList ||
    "aria-".toList.isPrefixOf name.toList

/-! ### Safe text -/

/-- The characters that stand for `c` in a quoted attribute value. -/
def escapeChar (c : Char) : List Char :=
  if c = '&' then "&amp;".toList
  else if c = '"' then "&quot;".toList
  else if c = '<' then "&lt;".toList
  else if c = '>' then "&gt;".toList
  else [c]

/-- A text as it stands in a quoted attribute value. -/
def escape (s : String) : String := String.ofList (s.toList.flatMap escapeChar)

/-- A text with a space between two hyphens; pairs are taken from the left. -/
def spaceHyphens : List Char → List Char
  | '-' :: '-' :: rest => '-' :: ' ' :: '-' :: spaceHyphens rest
  | c :: rest => c :: spaceHyphens rest
  | [] => []

/-- The characters that stand for `c` in a comment. -/
def commentChar (c : Char) : List Char := if c = '>' then "&gt;".toList else [c]

/-- A comment with a text. -/
def comment (s : String) : String :=
  "<!-- " ++ String.ofList ((spaceHyphens s.toList).flatMap commentChar) ++ " -->"

/-- The declaration at the start of a page. -/
def doctype : String := "<!DOCTYPE html>"

end Html

end PageTree
