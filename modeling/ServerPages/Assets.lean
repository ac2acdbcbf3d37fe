/-!
# What all pages share

The script that the generated scripts call, and the style that hides the regions
which tell of an update panel's progress until there is some to tell of. An
application may do without either.
-/

namespace ServerPages

structure Assets where
  script : Option String
  style : Option String
  deriving DecidableEq, Repr

namespace Assets

def none : Assets := ⟨Option.none, Option.none⟩

def scriptLines : List String := [
  "function __js(obj) \x7b",
  "  return JSON.stringify(obj);",
  "\x7d",
  "",
  "function __panelRegions(panelId, kinds) \x7b",
  "  return document.querySelectorAll(",
  "    kinds.map((k) => `[for=\"$\x7bpanelId\x7d\"][show*=\"$\x7bk\x7d\"]`).join(\", \")",
  "  );",
  "\x7d",
  "",
  "function __setDisplay(elts, display) \x7b",
  "  elts.forEach((elt) => \x7b",
  "    elt.style.display = display;",
  "  \x7d);",
  "\x7d",
  "",
  "// Replace the panel's content, keeping the bound elements (and their",
  "// listeners) that the new markup still contains.",
  "function __swapPanel(panel, html) \x7b",
  "  const bound = new Map();",
  "  panel.querySelectorAll(\"[__element_xid]\").forEach((elt) => \x7b",
  "    bound.set(elt.getAttribute(\"__element_xid\"), elt);",
  "  \x7d);",
  "  const fresh = document.createElement(\"template\");",
  "  fresh.innerHTML = html;",
  "  fresh.content.querySelectorAll(\"[__element_xid]\").forEach((elt) => \x7b",
  "    const old = bound.get(elt.getAttribute(\"__element_xid\"));",
  "    if (!old) return;",
  "    old.getAttributeNames().forEach((a) => \x7b",
  "      if (!elt.hasAttribute(a)) old.removeAttribute(a);",
  "    \x7d);",
  "    elt.getAttributeNames().forEach((a) => old.setAttribute(a, elt.getAttribute(a)));",
  "    old.replaceChildren(...elt.childNodes);",
  "    elt.replaceWith(old);",
  "  \x7d);",
  "  panel.replaceChildren(fresh.content);",
  "\x7d",
  "",
  "function __updatePanel(hiddenId, target) \x7b",
  "  const descriptor = JSON.parse(document.getElementById(hiddenId).value);",
  "  const panelId = descriptor.updatePanel;",
  "  const body = \x7b __eventElement: descriptor \x7d;",
  "  const panel = document.getElementById(panelId);",
  "  if (panel) \x7b",
  "    panel.querySelectorAll(\"input\").forEach((input) => \x7b",
  "      if (input.name) body[input.name] = input.value;",
  "    \x7d);",
  "  \x7d",
  "  document.querySelectorAll(`input[for=\"$\x7bpanelId\x7d\"]`).forEach((input) => \x7b",
  "    if (input.name) body[input.name] = input.value;",
  "  \x7d);",
  "  __setDisplay(__panelRegions(panelId, [\"progress\"]), \"initial\");",
  "  __setDisplay(__panelRegions(panelId, [\"success\", \"failure\", \"initial\"]), \"none\");",
  "",
  "  fetch(location.href, \x7b",
  "    method: \"POST\",",
  "    headers: \x7b \"Content-Type\": \"application/json\" \x7d,",
  "    body: JSON.stringify(body),",
  "  \x7d)",
  "    .then((response) => response.json())",
  "    .then((result) => \x7b",
  "      __setDisplay(__panelRegions(panelId, [\"progress\"]), \"none\");",
  "      if (!result.success) \x7b",
  "        throw new Error(result.error);",
  "      \x7d",
  "      target.postclick?.(target, \"success\", result);",
  "      const current = document.getElementById(panelId);",
  "      if (current) \x7b",
  "        __swapPanel(current, result.html);",
  "      \x7d",
  "      __setDisplay(__panelRegions(panelId, [\"success\"]), \"initial\");",
  "    \x7d)",
  "    .catch((error) => \x7b",
  "      target.postclick?.(target, \"error\", error);",
  "      console.error(\"update panel failed:\", error);",
  "      __setDisplay(__panelRegions(panelId, [\"progress\", \"success\", \"initial\"]), \"none\");",
  "      __setDisplay(__panelRegions(panelId, [\"failure\"]), \"initial\");",
  "    \x7d);",
  "  return false;",
  "\x7d",
  "",
  "async function server_event(name, args) \x7b",
  "  const response = await fetch(location.href, \x7b",
  "    method: \"POST\",",
  "    headers: \x7b \"Content-Type\": \"application/json\" \x7d,",
  "    body: JSON.stringify(\x7b __eventElement: \x7b exec: name, args: args \x7d \x7d),",
  "  \x7d);",
  "  return await response.json();",
  "\x7d",
  "",
  "function raiseServerEvent(self, key, event) \x7b",
  "  return clientEvents[key](self, event);",
  "\x7d"]

def styleLines : List String := [
  "[show*=\"progress\"],",
  "[show*=\"success\"],",
  "[show*=\"failure\"] \x7b",
  "  display: none;",
  "\x7d",
  "",
  "[show*=\"initial\"] \x7b",
  "  display: initial;",
  "\x7d"]

def ofLines (lines : List String) : String :=
  String.join (lines.map (· ++ "\n"))

def shared : Assets :=
  ⟨some (ofLines scriptLines), some (ofLines styleLines)⟩

end Assets

end ServerPages
