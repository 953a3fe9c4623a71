/-
**The names of the drawing library.**

The global functions, constants and lifecycle hooks that a sketch may use without declaring them,
group by group.

* `Symbols.bundledLifecycle`, `Symbols.bundledFunctions`, `Symbols.bundledConstants` — the three lists;
* `SymbolTable.bundled` — the table of them.
-/

import SketchHost.Symbols.Table

set_option relaxedAutoImplicit false
set_option autoImplicit false

namespace SketchHost

namespace Symbols

/-! ### Lifecycle -/

/-- The hooks that the library calls. -/
def bundledLifecycle : List String :=
  ["preload", "setup", "draw", "windowResized", "mousePressed", "mouseReleased", "mouseClicked",
   "mouseMoved", "mouseDragged", "mouseWheel", "doubleClicked", "keyPressed", "keyReleased",
   "keyTyped", "touchStarted", "touchMoved", "touchEnded", "deviceMoved", "deviceTurned",
   "deviceShaken"]

/-! ### Functions -/

/-- The functions of the library: structure. -/
def structureFunctions : List String :=
  ["remove", "noLoop", "loop", "isLooping", "push", "pop", "redraw"]

/-- The functions of the library: environment. -/
def environmentFunctions : List String :=
  ["cursor", "noCursor", "frameRate", "getTargetFrameRate", "fullscreen", "pixelDensity",
   "displayDensity", "getURL", "getURLPath", "getURLParams", "describe", "describeElement",
   "textOutput", "gridOutput", "print"]

/-- The functions of the library: rendering. -/
def renderingFunctions : List String :=
  ["createCanvas", "resizeCanvas", "noCanvas", "createGraphics", "createFramebuffer", "blendMode",
   "clearDepth"]

/-- The functions of the library: shape. -/
def shapeFunctions : List String :=
  ["arc", "ellipse", "circle", "line", "point", "quad", "rect", "square", "triangle",
   "ellipseMode", "noSmooth", "rectMode", "smooth", "strokeCap", "strokeJoin", "strokeWeight",
   "bezier", "bezierDetail", "bezierPoint", "bezierTangent", "curve", "curveDetail",
   "curveTightness", "curvePoint", "curveTangent", "beginContour", "beginShape", "bezierVertex",
   "curveVertex", "endContour", "endShape", "quadraticVertex", "vertex", "normal", "splineVertex",
   "plane", "box", "sphere", "cylinder", "cone", "ellipsoid", "torus", "loadModel", "model",
   "createModel"]

/-- The functions of the library: color. -/
def colorFunctions : List String :=
  ["alpha", "blue", "brightness", "color", "green", "hue", "lerpColor", "lightness", "red",
   "saturation", "background", "clear", "colorMode", "fill", "noFill", "noStroke", "stroke",
   "erase", "noErase", "beginClip", "endClip", "clip"]

/-- The functions of the library: transform. -/
def transformFunctions : List String :=
  ["applyMatrix", "resetMatrix", "rotate", "rotateX", "rotateY", "rotateZ", "scale", "shearX",
   "shearY", "translate"]

/-- The functions of the library: data. -/
def dataFunctions : List String :=
  ["storeItem", "getItem", "clearStorage", "removeItem", "createStringDict", "createNumberDict",
   "append", "arrayCopy", "concat", "reverse", "shorten", "shuffle", "sort", "splice", "subset",
   "float", "int", "str", "boolean", "byte", "char", "unchar", "hex", "unhex", "join", "match",
   "matchAll", "nf", "nfc", "nfp", "nfs", "split", "splitTokens", "trim"]

/-- The functions of the library: events. -/
def eventsFunctions : List String :=
  ["setMoveThreshold", "setShakeThreshold", "keyIsDown", "requestPointerLock", "exitPointerLock"]

/-- The functions of the library: dom. -/
def domFunctions : List String :=
  ["select", "selectAll", "removeElements", "changed", "input", "createDiv", "createP",
   "createSpan", "createImg", "createA", "createSlider", "createButton", "createCheckbox",
   "createSelect", "createRadio", "createColorPicker", "createInput", "createFileInput",
   "createVideo", "createAudio", "createCapture", "createElement"]

/-- The functions of the library: image. -/
def imageFunctions : List String :=
  ["createImage", "saveCanvas", "saveFrames", "saveGif", "loadImage", "image", "tint", "noTint",
   "imageMode", "blend", "copy", "filter", "get", "loadPixels", "set", "updatePixels"]

/-- The functions of the library: io. -/
def ioFunctions : List String :=
  ["loadJSON", "loadStrings", "loadTable", "loadXML", "loadBytes", "httpGet", "httpPost", "httpDo",
   "createWriter", "save", "saveJSON", "saveStrings", "saveTable", "day", "hour", "minute",
   "millis", "month", "second", "year"]

/-- The functions of the library: math. -/
def mathFunctions : List String :=
  ["abs", "ceil", "constrain", "dist", "exp", "floor", "lerp", "log", "mag", "map", "max", "min",
   "norm", "pow", "round", "sq", "sqrt", "fract", "createVector", "noise", "noiseDetail",
   "noiseSeed", "randomSeed", "random", "randomGaussian", "acos", "asin", "atan", "atan2", "cos",
   "sin", "tan", "degrees", "radians", "angleMode"]

/-- The functions of the library: typography. -/
def typographyFunctions : List String :=
  ["textAlign", "textLeading", "textSize", "textStyle", "textWidth", "textAscent", "textDescent",
   "textWrap", "textFont", "textBounds", "loadFont", "text"]

/-- The functions of the library: lights and camera. -/
def lightsAndCameraFunctions : List String :=
  ["orbitControl", "debugMode", "noDebugMode", "ambientLight", "specularColor", "directionalLight",
   "pointLight", "imageLight", "panorama", "lights", "lightFalloff", "spotLight", "noLights",
   "loadShader", "createShader", "createFilterShader", "shader", "resetShader", "texture",
   "textureMode", "textureWrap", "normalMaterial", "ambientMaterial", "emissiveMaterial",
   "specularMaterial", "shininess", "metalness", "camera", "perspective", "linePerspective",
   "ortho", "frustum", "createCamera", "setCamera", "buildGeometry", "freeGeometry"]

/-- The functions of the library, group after group. -/
def bundledFunctions : List String :=
  structureFunctions ++ environmentFunctions ++ renderingFunctions ++ shapeFunctions
    ++ colorFunctions ++ transformFunctions ++ dataFunctions ++ eventsFunctions
    ++ domFunctions ++ imageFunctions ++ ioFunctions ++ mathFunctions ++ typographyFunctions
    ++ lightsAndCameraFunctions

/-! ### Constants -/

/-- The constants and variables of the library. -/
def bundledConstants : List String :=
  ["width", "height", "windowWidth", "windowHeight", "displayWidth", "displayHeight", "frameCount",
   "deltaTime", "focused", "webglVersion", "pixels", "drawingContext", "mouseX", "mouseY",
   "pmouseX", "pmouseY", "winMouseX", "winMouseY", "pwinMouseX", "pwinMouseY", "movedX", "movedY",
   "mouseButton", "mouseIsPressed", "keyIsPressed", "key", "keyCode", "touches", "accelerationX",
   "accelerationY", "accelerationZ", "pAccelerationX", "pAccelerationY", "pAccelerationZ",
   "rotationX", "rotationY", "rotationZ", "pRotationX", "pRotationY", "pRotationZ", "turnAxis",
   "deviceOrientation", "PI", "HALF_PI", "QUARTER_PI", "TWO_PI", "TAU", "DEGREES", "RADIANS",
   "P2D", "WEBGL", "WEBGL2", "ARROW", "CROSS", "HAND", "MOVE", "TEXT", "WAIT", "CORNER", "CORNERS",
   "RADIUS", "CENTER", "LEFT", "RIGHT", "TOP", "BOTTOM", "BASELINE", "POINTS", "LINES",
   "LINE_STRIP", "LINE_LOOP", "TRIANGLES", "TRIANGLE_FAN", "TRIANGLE_STRIP", "QUADS", "QUAD_STRIP",
   "TESS", "CLOSE", "OPEN", "CHORD", "PIE", "PROJECT", "SQUARE", "ROUND", "BEVEL", "MITER", "RGB",
   "HSB", "HSL", "AUTO", "ALT", "BACKSPACE", "CONTROL", "DELETE", "DOWN_ARROW", "ENTER", "ESCAPE",
   "LEFT_ARROW", "OPTION", "RETURN", "RIGHT_ARROW", "SHIFT", "TAB", "UP_ARROW", "BLEND", "REMOVE",
   "ADD", "DARKEST", "LIGHTEST", "DIFFERENCE", "SUBTRACT", "EXCLUSION", "MULTIPLY", "SCREEN",
   "REPLACE", "OVERLAY", "HARD_LIGHT", "SOFT_LIGHT", "DODGE", "BURN", "THRESHOLD", "GRAY",
   "OPAQUE", "INVERT", "POSTERIZE", "DILATE", "ERODE", "BLUR", "NORMAL", "ITALIC", "BOLD",
   "BOLDITALIC", "CHAR", "WORD", "LINEAR", "QUADRATIC", "BEZIER", "CURVE", "STROKE", "FILL",
   "TEXTURE", "IMMEDIATE", "IMAGE", "NEAREST", "REPEAT", "CLAMP", "MIRROR", "LANDSCAPE",
   "PORTRAIT", "GRID", "AXES", "LABEL", "FALLBACK", "CONTAIN", "COVER", "UNSIGNED_BYTE",
   "UNSIGNED_INT", "FLOAT", "HALF_FLOAT", "RGBA"]

end Symbols

/-- The table of the drawing library. -/
def SymbolTable.bundled : SymbolTable :=
  .ofLists Symbols.bundledFunctions Symbols.bundledConstants Symbols.bundledLifecycle

end SketchHost
