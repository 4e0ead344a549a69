import AppLauncher.Text.Base64
import AppLauncher.Text.Markup
import AppLauncher.Text.Utf8

/-!
# The error page

A page that stands on its own and tells why the server could not be shown, and the URL that carries the whole
page.  A message and the version of the launcher go into the page with their markup characters escaped.
-/

namespace AppLauncher.Window.ErrorPage

/-- The page before the message. -/
def opening : String :=
  "\n".intercalate [
    "<!DOCTYPE html>",
    "<html>",
    "<head>",
    "    <meta charset=\"utf-8\">",
    "    <style>",
    "        body \x7b",
    "            margin: 0;",
    "            display: flex;",
    "            justify-content: center;",
    "            align-items: center;",
    "            min-height: 100vh;",
    "            background: #f5f5f5;",
    "            font-family: -apple-system, BlinkMacSystemFont, 'Segoe UI', Roboto, sans-serif;",
    "        \x7d",
    "        .error-container \x7b",
    "            background: white;",
    "            padding: 40px;",
    "            border-radius: 12px;",
    "            box-shadow: 0 4px 20px rgba(0,0,0,0.1);",
    "            max-width: 500px;",
    "            text-align: center;",
    "        \x7d",
    "        h1 \x7b",
    "            color: #e53e3e;",
    "            font-size: 24px;",
    "        \x7d",
    "        p \x7b",
    "            color: #4a5568;",
    "            line-height: 1.6;",
    "            white-space: pre-wrap;",
    "        \x7d",
    "        .build \x7b",
    "            margin-top: 30px;",
    "            font-size: 12px;",
    "            color: #a0aec0;",
    "        \x7d",
    "    </style>",
    "</head>",
    "<body>",
    "    <div class=\"error-container\">",
    "        <h1>Startup error</h1>",
    "        <p>"]

/-- The page between the message and the version. -/
def middle : String := "</p>\n        <div class=\"build\">Build: "

/-- The page after the version. -/
def closing : String := "</div>\n    </div>\n</body>\n</html>\n"

/-- The characters of a page. -/
def chars (message version : List Char) : List Char :=
  opening.toList ++ Text.Markup.escape message ++ middle.toList ++ Text.Markup.escape version ++ closing.toList

/-- The page that shows a message and a version. -/
def page (message version : String) : String := String.ofList (chars message.toList version.toList)

/-- What stands before the encoded page in its URL. -/
def scheme : String := "data:text/html;charset=utf-8;base64,"

/-- The URL that carries the whole page. -/
def url (message version : String) : String :=
  scheme ++ String.ofList (Text.Base64.encode (Text.Utf8.ofString (page message version)))

end AppLauncher.Window.ErrorPage
