/-
The utility catalog: sources of the single-purpose classes, grouped by what they set.

The order is the order of look-up. Categories and sources are data; nothing else depends on their number.
-/

namespace ClassNaming

/-- a named group of utility sources -/
abbrev UtilityGroup := String × List String

/-- the builtin utility sources by category -/
def utilityCatalog : List UtilityGroup := [
  ("flexbox", [
    r"^flex$",
    r"^inline-flex$",
    r"^flex-(row|col|wrap|nowrap|1|auto|initial|none)$",
    r"^flex-(row|col)-reverse$",
    r"^items-(start|end|center|baseline|stretch)$",
    r"^justify-(start|end|center|between|around|evenly)$",
    r"^self-(auto|start|end|center|stretch|baseline)$",
    r"^grow(-0)?$",
    r"^shrink(-0)?$",
    r"^order-\d+$"]),
  ("grid", [
    r"^grid$",
    r"^inline-grid$",
    r"^grid-cols-\d+$",
    r"^grid-rows-\d+$",
    r"^col-span-\d+$",
    r"^row-span-\d+$",
    r"^gap-\d+$",
    r"^gap-x-\d+$",
    r"^gap-y-\d+$"]),
  ("spacing", [
    r"^[mp][trblxy]?-\d+(\.\d+)?$",
    r"^-[mp][trblxy]?-\d+(\.\d+)?$",
    r"^space-[xy]-\d+$",
    r"^-space-[xy]-\d+$"]),
  ("sizing", [
    r"^[wh]-(full|screen|auto|min|max|fit|\d+(\.\d+)?|(\d+/\d+))$",
    r"^min-[wh]-(full|screen|0|\d+(\.\d+)?)$",
    r"^max-[wh]-(full|screen|none|\d+(\.\d+)?)$",
    r"^size-\d+$"]),
  ("typography", [
    r"^text-(xs|sm|base|lg|xl|2xl|3xl|4xl|5xl|6xl|7xl|8xl|9xl)$",
    r"^text-(left|center|right|justify|start|end)$",
    r"^text-\[.+\]$",
    r"^font-(thin|extralight|light|normal|medium|semibold|bold|extrabold|black)$",
    r"^font-(sans|serif|mono)$",
    r"^leading-(none|tight|snug|normal|relaxed|loose|\d+)$",
    r"^tracking-(tighter|tight|normal|wide|wider|widest)$",
    r"^uppercase$",
    r"^lowercase$",
    r"^capitalize$",
    r"^normal-case$",
    r"^italic$",
    r"^not-italic$",
    r"^underline$",
    r"^overline$",
    r"^line-through$",
    r"^no-underline$",
    r"^truncate$",
    r"^whitespace-(normal|nowrap|pre|pre-line|pre-wrap|break-spaces)$",
    r"^break-(normal|words|all|keep)$"]),
  ("colors", [
    r"^(text|bg|border|ring|shadow)-(transparent|current|inherit)$",
    r"^(text|bg|border|ring)-(black|white)$",
    r"^(text|bg|border|ring)-(slate|gray|zinc|neutral|stone|red|orange|amber|yellow|lime|green|emerald|teal|cyan|sky|blue|indigo|violet|purple|fuchsia|pink|rose)-\d{2,3}$",
    r"^(text|bg|border|ring)-\[#[0-9a-fA-F]{3,8}\]$",
    r"^(text|bg|border|ring)-\[rgb.+\]$"]),
  ("backgrounds", [
    r"^bg-(fixed|local|scroll)$",
    r"^bg-(bottom|center|left|left-bottom|left-top|right|right-bottom|right-top|top)$",
    r"^bg-(repeat|no-repeat|repeat-x|repeat-y|repeat-round|repeat-space)$",
    r"^bg-(auto|cover|contain)$",
    r"^bg-gradient-to-(t|tr|r|br|b|bl|l|tl)$",
    r"^from-\w+(-\d+)?$",
    r"^via-\w+(-\d+)?$",
    r"^to-\w+(-\d+)?$"]),
  ("borders", [
    r"^border(-[trblxy])?(-\d+)?$",
    r"^border-(solid|dashed|dotted|double|hidden|none)$",
    r"^rounded(-[trblxy])?(-none|-sm|-md|-lg|-xl|-2xl|-3xl|-full)?$",
    r"^divide-[xy](-\d+)?$",
    r"^divide-(solid|dashed|dotted|double|none)$",
    r"^ring(-\d+)?$",
    r"^ring-inset$",
    r"^ring-offset-\d+$"]),
  ("effects", [
    r"^shadow(-sm|-md|-lg|-xl|-2xl|-inner|-none)?$",
    r"^opacity-\d+$",
    r"^mix-blend-\w+$",
    r"^bg-blend-\w+$"]),
  ("filters", [
    r"^blur(-sm|-md|-lg|-xl|-2xl|-3xl|-none)?$",
    r"^brightness-\d+$",
    r"^contrast-\d+$",
    r"^grayscale(-0)?$",
    r"^hue-rotate-\d+$",
    r"^-hue-rotate-\d+$",
    r"^invert(-0)?$",
    r"^saturate-\d+$",
    r"^sepia(-0)?$",
    r"^drop-shadow(-sm|-md|-lg|-xl|-2xl|-none)?$",
    r"^backdrop-blur(-sm|-md|-lg|-xl|-2xl|-3xl|-none)?$"]),
  ("layout", [
    r"^block$",
    r"^inline-block$",
    r"^inline$",
    r"^hidden$",
    r"^contents$",
    r"^flow-root$",
    r"^list-item$",
    r"^list-(none|disc|decimal)$",
    r"^float-(left|right|none)$",
    r"^clear-(left|right|both|none)$",
    r"^object-(contain|cover|fill|none|scale-down)$",
    r"^object-(bottom|center|left|left-bottom|left-top|right|right-bottom|right-top|top)$",
    r"^overflow(-[xy])?-(auto|hidden|clip|visible|scroll)$",
    r"^overscroll(-[xy])?-(auto|contain|none)$"]),
  ("positioning", [
    r"^(static|fixed|absolute|relative|sticky)$",
    r"^(top|right|bottom|left|inset)(-[xy])?-\d+(\.\d+)?$",
    r"^-(top|right|bottom|left|inset)(-[xy])?-\d+(\.\d+)?$",
    r"^(top|right|bottom|left|inset)(-[xy])?-(auto|full|1/2)$",
    r"^z-\d+$",
    r"^z-(auto)$",
    r"^-z-\d+$"]),
  ("transforms", [
    r"^scale(-[xy])?-\d+$",
    r"^rotate-\d+$",
    r"^-rotate-\d+$",
    r"^translate-[xy]-\d+(\.\d+)?$",
    r"^-translate-[xy]-\d+(\.\d+)?$",
    r"^skew-[xy]-\d+$",
    r"^-skew-[xy]-\d+$",
    r"^origin-(center|top|top-right|right|bottom-right|bottom|bottom-left|left|top-left)$",
    r"^transform$",
    r"^transform-none$",
    r"^transform-gpu$"]),
  ("transitions", [
    r"^transition(-all|-colors|-opacity|-shadow|-transform|-none)?$",
    r"^duration-\d+$",
    r"^ease-(linear|in|out|in-out)$",
    r"^delay-\d+$",
    r"^animate-(none|spin|ping|pulse|bounce)$"]),
  ("interactivity", [
    r"^cursor-(auto|default|pointer|wait|text|move|help|not-allowed|none|context-menu|progress|cell|crosshair|vertical-text|alias|copy|no-drop|grab|grabbing|all-scroll|col-resize|row-resize|n-resize|e-resize|s-resize|w-resize|ne-resize|nw-resize|se-resize|sw-resize|ew-resize|ns-resize|nesw-resize|nwse-resize|zoom-in|zoom-out)$",
    r"^resize(-none|-x|-y)?$",
    r"^select-(none|text|all|auto)$",
    r"^pointer-events-(none|auto)$",
    r"^touch-(auto|none|pan-x|pan-left|pan-right|pan-y|pan-up|pan-down|pinch-zoom|manipulation)$",
    r"^scroll-(auto|smooth)$",
    r"^scroll-[mp][trblxy]?-\d+$",
    r"^snap-(start|end|center|align-none)$",
    r"^snap-(normal|always)$",
    r"^snap-(none|x|y|both|mandatory|proximity)$",
    r"^appearance-none$",
    r"^outline(-none|-dashed|-dotted|-double)?$",
    r"^outline-\d+$",
    r"^outline-offset-\d+$",
    r"^accent-\w+(-\d+)?$",
    r"^caret-\w+(-\d+)?$",
    r"^will-change-(auto|scroll|contents|transform)$"]),
  ("accessibility", [
    r"^sr-only$",
    r"^not-sr-only$",
    r"^forced-color-adjust-(auto|none)$"]),
  ("tables", [
    r"^table(-auto|-fixed)?$",
    r"^table-(caption|cell|column|column-group|footer-group|header-group|row-group|row)$",
    r"^border-(collapse|separate)$",
    r"^border-spacing(-[xy])?-\d+$",
    r"^caption-(top|bottom)$"]),
  ("svg", [
    r"^fill-(none|inherit|current|\w+(-\d+)?)$",
    r"^stroke-(none|inherit|current|\w+(-\d+)?)$",
    r"^stroke-\d+$"]),
  ("aspect-ratio", [
    r"^aspect-(auto|square|video)$",
    r"^aspect-\[\d+/\d+\]$"]),
  ("columns", [
    r"^columns-\d+$",
    r"^columns-(auto|3xs|2xs|xs|sm|md|lg|xl|2xl|3xl|4xl|5xl|6xl|7xl)$",
    r"^break-(before|after|inside)-(auto|avoid|all|avoid-page|page|left|right|column)$"]),
  ("box-decoration", [
    r"^box-(border|content)$",
    r"^decoration-(clone|slice)$",
    r"^isolation-(auto|isolate)$"]),
  ("container", [
    r"^container$",
    r"^mx-auto$"]),
  ("visibility", [
    r"^visible$",
    r"^invisible$",
    r"^collapse$"])]

end ClassNaming
