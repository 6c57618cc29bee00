import GrammarHeaders.ModuleName

namespace GrammarHeaders.SmokeTest

def fileName : String := "Program.cs"

def programLines (root language function : String) : List String :=
  ["using System;",
   s!"using {root};",
   "",
   "namespace bindings_test",
   "\x7b",
   "    class Parser : IDisposable",
   "    \x7b",
   "        TSParser m_parser;",
   "",
   "        public Parser()",
   "        \x7b",
   "            m_parser = api.TsParserNew();",
   "        \x7d",
   "",
   "        public void Dispose()",
   "        \x7b",
   "            api.TsParserDelete(m_parser);",
   "        \x7d",
   "",
   "        public void SetLanguage()",
   "        \x7b",
   s!"            api.TsParserSetLanguage(m_parser, global::{language}.{language}.{function}());",
   "        \x7d",
   "    \x7d",
   "",
   "    internal class Program",
   "    \x7b",
   "        static int Main(string[] args)",
   "        \x7b",
   "            using (var parser = new Parser())",
   "            \x7b",
   "                Console.WriteLine(\"Made a Parser\");",
   "                parser.SetLanguage();",
   s!"                Console.WriteLine(\"Set the {language} language\");",
   "            \x7d",
   "            Console.WriteLine(\"Deleted a Parser\");",
   "            return 0;",
   "        \x7d",
   "    \x7d",
   "\x7d"]

def program (root language : String) : String :=
  let function := ModuleName.pascalCase (ModuleName.factoryName language)
  String.join ((programLines root language function).map fun line => line ++ "\n")

end GrammarHeaders.SmokeTest
