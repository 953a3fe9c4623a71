/-
**The bridge.**

The lines that run in the frame of a sketch before its code: they remember the identifier of the run,
find the origin of the parent, copy the console, report errors and sizes, and say that the frame is
ready.

* `bridgeOpening`, `bridgeRest` — the lines before and after the one that sets the identifier;
* `identifierLine` — the line that sets the identifier;
* `bridge` — the lines for an identifier.
-/

import SketchHost.Json.Literal

set_option relaxedAutoImplicit false
set_option autoImplicit false

namespace SketchHost

namespace Injection

/-- The lines before the one that sets the identifier. -/
def bridgeOpening : List String :=
  ["(function () \x7b",
   "  var bridge = window.__sketchBridge = window.__sketchBridge || \x7b\x7d;"]

/-- The lines after the one that sets the identifier. -/
def bridgeRest : List String :=
  ["  bridge.logs = bridge.logs || [];",
   "  bridge.parentOrigin = (function () \x7b",
   "    try \x7b",
   "      if (document.referrer) \x7b return new URL(document.referrer).origin; \x7d",
   "      if (window.location.ancestorOrigins && window.location.ancestorOrigins.length) \x7b",
   "        return window.location.ancestorOrigins[0];",
   "      \x7d",
   "    \x7d catch (e) \x7b",
   "      // fall back to the frame's own origin",
   "    \x7d",
   "    return window.location.origin;",
   "  \x7d)();",
   "  function post(message) \x7b",
   "    message.sketchInstanceId = bridge.sketchInstanceId;",
   "    window.parent.postMessage(message, bridge.parentOrigin);",
   "  \x7d",
   "  function describe(arg) \x7b",
   "    if (typeof arg === 'object') \x7b",
   "      try \x7b return JSON.stringify(arg); \x7d catch (e) \x7b return String(arg); \x7d",
   "    \x7d",
   "    return String(arg);",
   "  \x7d",
   "  [['log', ''], ['error', 'Error: '], ['warn', 'Warning: ']].forEach(function (entry) \x7b",
   "    var original = console[entry[0]].bind(console);",
   "    console[entry[0]] = function () \x7b",
   "      var args = Array.prototype.slice.call(arguments);",
   "      try \x7b",
   "        var message = entry[1] + args.map(describe).join(' ');",
   "        bridge.logs.push(message);",
   "        if (typeof bridge.appendLog === 'function') \x7b bridge.appendLog(message); \x7d",
   "      \x7d catch (e) \x7b",
   "        original('[sketch console bridge error]', e);",
   "      \x7d",
   "      original.apply(null, args);",
   "    \x7d;",
   "  \x7d);",
   "  window.addEventListener('error', function (event) \x7b",
   "    var stack = event.error && event.error.stack ? String(event.error.stack) : undefined;",
   "    post(\x7b type: 'error', message: String(event.message), stack: stack, lineno: event.lineno \x7d);",
   "  \x7d);",
   "  bridge.lastWidth = 0;",
   "  bridge.lastHeight = 0;",
   "  if (!bridge.reportSize) \x7b",
   "    bridge.reportSize = function () \x7b",
   "      var canvas = document.querySelector('canvas');",
   "      if (!canvas) \x7b return; \x7d",
   "      // room for the frame border",
   "      var width = canvas.offsetWidth + 4;",
   "      var height = canvas.offsetHeight + 4;",
   "      if (width !== bridge.lastWidth || height !== bridge.lastHeight) \x7b",
   "        bridge.lastWidth = width;",
   "        bridge.lastHeight = height;",
   "        post(\x7b type: 'resize', width: width, height: height \x7d);",
   "      \x7d",
   "    \x7d;",
   "    new MutationObserver(function () \x7b setTimeout(bridge.reportSize, 100); \x7d)",
   "      .observe(document.documentElement, \x7b childList: true, subtree: true \x7d);",
   "    setInterval(bridge.reportSize, 500);",
   "  \x7d",
   "  post(\x7b type: 'ready' \x7d);"]

/-- The line that sets the identifier of the run, which is a literal of JSON. -/
def identifierLine (id : String) : List Char :=
  "  bridge.sketchInstanceId = ".toList ++ Json.quote id.toList ++ [';']

/-- The lines of the bridge for a run. -/
def bridge (id : String) : List (List Char) :=
  bridgeOpening.map String.toList ++ identifierLine id :: bridgeRest.map String.toList

end Injection

end SketchHost
