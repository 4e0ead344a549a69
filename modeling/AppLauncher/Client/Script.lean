import AppLauncher.Client.Relay

/-!
# The scripts of the window

What is put into the window before the scripts of the page run: the relays first, so that they are there even if
the reporter of the image's size fails on a page without images.
-/

namespace AppLauncher.Client

/-- The cookie that holds the height of the first image. -/
def heightCookie : String := "height"

/-- The cookie that holds the width of the first image. -/
def widthCookie : String := "width"

/-- The script that keeps the size of the first image in two cookies, from the moment the page is read. -/
def dimensionReporter : String :=
  "\n".intercalate [
    "(function () \x7b",
    "    function set_height_width_cookies() \x7b",
    "        var image = document.getElementsByTagName(\"img\")[0];",
    "        var height = image.clientHeight;",
    "        var width = image.clientWidth;",
    "        document.cookie = " ++ Text.Literal.ofString heightCookie ++ " + \"=\" + height;",
    "        document.cookie = " ++ Text.Literal.ofString widthCookie ++ " + \"=\" + width;",
    "    \x7d",
    "    window.set_height_width_cookies = set_height_width_cookies;",
    "    if (document.readyState === \"loading\") \x7b",
    "        document.addEventListener(\"DOMContentLoaded\", set_height_width_cookies);",
    "    \x7d else \x7b",
    "        set_height_width_cookies();",
    "    \x7d",
    "    window.addEventListener(\"resize\", function () \x7b",
    "        set_height_width_cookies();",
    "    \x7d);",
    "\x7d)();",
    ""]

/-- Everything that is put into the window. -/
def initScript : String := Relay.saveGraph.script ++ Relay.graph.script ++ dimensionReporter

end AppLauncher.Client
