import ServerPages.Markup.Tree
import ServerPages.Text.Ascii

/-!
# Elements that are not HTML

Tags are read in small letters; within SVG some names get their capitals back.
Some attributes have a name in two parts. At integration points HTML goes on
within the other vocabularies.
-/

namespace ServerPages.Markup

open Text

/-- The written form of a name with capitals, among names given with theirs. -/
def withCapitals (names : List String) (name : String) : String :=
  (names.find? fun written => written.toLower = name).getD name

def svgElementNames : List String :=
  ["altGlyph", "altGlyphDef", "altGlyphItem", "animateColor", "animateMotion", "animateTransform",
   "clipPath", "feBlend", "feColorMatrix", "feComponentTransfer", "feComposite",
   "feConvolveMatrix", "feDiffuseLighting", "feDisplacementMap", "feDistantLight", "feDropShadow",
   "feFlood", "feFuncA", "feFuncB", "feFuncG", "feFuncR", "feGaussianBlur", "feImage", "feMerge",
   "feMergeNode", "feMorphology", "feOffset", "fePointLight", "feSpecularLighting", "feSpotLight",
   "feTile", "feTurbulence", "foreignObject", "glyphRef", "linearGradient", "radialGradient",
   "textPath"]

def svgAttributeNames : List String :=
  ["attributeName", "attributeType", "baseFrequency", "baseProfile", "calcMode", "clipPathUnits",
   "diffuseConstant", "edgeMode", "filterUnits", "glyphRef", "gradientTransform", "gradientUnits",
   "kernelMatrix", "kernelUnitLength", "keyPoints", "keySplines", "keyTimes", "lengthAdjust",
   "limitingConeAngle", "markerHeight", "markerUnits", "markerWidth", "maskContentUnits",
   "maskUnits", "numOctaves", "pathLength", "patternContentUnits", "patternTransform",
   "patternUnits", "pointsAtX", "pointsAtY", "pointsAtZ", "preserveAlpha", "preserveAspectRatio",
   "primitiveUnits", "refX", "refY", "repeatCount", "repeatDur", "requiredExtensions",
   "requiredFeatures", "specularConstant", "specularExponent", "spreadMethod", "startOffset",
   "stdDeviation", "stitchTiles", "surfaceScale", "systemLanguage", "tableValues", "targetX",
   "targetY", "textLength", "viewBox", "viewTarget", "xChannelSelector", "yChannelSelector",
   "zoomAndPan"]

def twoPartNames : List (String × String × String) :=
  [("xlink:actuate", "xlink", "actuate"), ("xlink:arcrole", "xlink", "arcrole"),
   ("xlink:href", "xlink", "href"), ("xlink:role", "xlink", "role"),
   ("xlink:show", "xlink", "show"), ("xlink:title", "xlink", "title"),
   ("xlink:type", "xlink", "type"), ("xml:lang", "xml", "lang"), ("xml:space", "xml", "space"),
   ("xmlns", "", "xmlns"), ("xmlns:xlink", "xmlns", "xlink")]

def Vocabulary.elementName (vocabulary : Vocabulary) (name : String) : String :=
  match vocabulary with
  | .svg => withCapitals svgElementNames name
  | _ => name

def Vocabulary.attributeName (vocabulary : Vocabulary) (name : String) : Name :=
  match vocabulary with
  | .html => .plain name
  | .svg => twoPart (withCapitals svgAttributeNames name)
  | .math => twoPart (withCapitals ["definitionURL"] name)
where
  twoPart (name : String) : Name :=
    match twoPartNames.find? (·.1 = name) with
    | some (_, qualifier, localName) => ⟨some qualifier, localName⟩
    | none => .plain name

def Vocabulary.attributes (vocabulary : Vocabulary) (attributes : List (String × String)) :
    List Attribute :=
  attributes.map fun (name, value) => ⟨vocabulary.attributeName name, value⟩

def isMathTextPoint (vocabulary : Vocabulary) (name : String) : Bool :=
  vocabulary == .math && ["mi", "mo", "mn", "ms", "mtext"].contains name

def isSvgPoint (vocabulary : Vocabulary) (name : String) : Bool :=
  vocabulary == .svg && ["foreignObject", "desc", "title"].contains name

def annotatesHtml (attributes : List Attribute) : Bool :=
  attributes.any fun item =>
    item.name = .plain "encoding" &&
      (equalUpToCase item.value "text/html" || equalUpToCase item.value "application/xhtml+xml")

/-- Opening tags that end all that is not HTML around them. -/
def breakoutNames : List String :=
  ["b", "big", "blockquote", "body", "br", "center", "code", "dd", "div", "dl", "dt", "em",
   "embed", "h1", "h2", "h3", "h4", "h5", "h6", "head", "hr", "i", "img", "li", "listing", "menu",
   "meta", "nobr", "ol", "p", "pre", "ruby", "s", "small", "span", "strong", "strike", "sub",
   "sup", "table", "tt", "u", "ul", "var"]

end ServerPages.Markup
