/-!
# The start page
-/

namespace MoveDesk.Http

/-- A form that asks the server for the code of a contract and shows it. -/
def startPage : String :=
  "<!DOCTYPE html>
<html lang=\"en\">
<head>
  <meta charset=\"utf-8\">
  <title>movesmith</title>
  <style>
    body \x7b font-family: system-ui, sans-serif; max-width: 52rem; margin: 2rem auto; padding: 0 1rem; \x7d
    label \x7b display: block; margin-top: .75rem; \x7d
    input, select \x7b width: 100%; padding: .4rem; \x7d
    button \x7b margin-top: 1rem; padding: .5rem 1.5rem; \x7d
    pre \x7b background: #f4f4f4; padding: 1rem; overflow-x: auto; white-space: pre; \x7d
  </style>
</head>
<body>
  <h1>movesmith</h1>
  <p>Generate a Move contract skeleton.</p>
  <form id=\"generate\">
    <label>Contract type
      <select name=\"intent\">
        <option value=\"token\">Token</option>
        <option value=\"nft\">NFT</option>
        <option value=\"marketplace\">Marketplace</option>
        <option value=\"module\">Module</option>
      </select>
    </label>
    <label>Name <input name=\"name\" placeholder=\"default for the chosen type\"></label>
    <label>Address <input name=\"address\" placeholder=\"0x1\"></label>
    <button type=\"submit\">Generate</button>
  </form>
  <pre id=\"output\"></pre>
  <script>
    document.getElementById(\"generate\").addEventListener(\"submit\", async (event) => \x7b
      event.preventDefault();
      const form = new FormData(event.target);
      const params = \x7b\x7d;
      for (const key of [\"name\", \"address\"]) \x7b
        const value = form.get(key);
        if (value) params[key] = value;
      \x7d
      const response = await fetch(\"/api/v1/generate\", \x7b
        method: \"POST\",
        headers: \x7b \"Content-Type\": \"application/json\" \x7d,
        body: JSON.stringify(\x7b intent: form.get(\"intent\"), params \x7d),
      \x7d);
      const body = await response.json();
      document.getElementById(\"output\").textContent = body.code;
    \x7d);
  </script>
</body>
</html>
"

end MoveDesk.Http
