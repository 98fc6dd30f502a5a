import RouteModule.Options

/-!
What the modules of the frameworks say differently. They all have one layout; a wording holds the
texts that a framework puts between the names and values of an application.
-/

namespace RouteModule

/-- Lines as one text, with line breaks between them. -/
def paragraph (lines : List String) : Text := Text.join ['\n'] (lines.map String.toList)

theorem paragraph_singleton (l : String) : paragraph [l] = l.toList := rfl

theorem paragraph_cons (l m : String) (rest : List String) :
    paragraph (l :: m :: rest) = l.toList ++ '\n' :: paragraph (m :: rest) := by
  simp [paragraph, Text.join]

/-- The texts of a framework's module that do not depend on the application. -/
structure Wording where
  /-- What the class that serves the routes is named after. -/
  service : Text
  /-- The function that authenticates requests. -/
  authentication : Text
  /-- The imports of the framework's own types. -/
  types : Text
  /-- What stands behind these imports for the sake of authentication. -/
  recast : Option Text
  /-- What the class that serves the routes is given behind the settings. -/
  serviceArguments : Text
  /-- What routes are registered with. -/
  router : Text
  beforeVerb : Text
  beforePath : Text
  behindPath : Text
  beforeSecurity : Text
  behindSecurity : Text
  beforeMiddlewares : Text
  beforeHandler : Text
  /-- The parameters of a handler and its first lines. -/
  signature : Text
  behindArguments : Text
  beforeContainer : Text
  beforeConstructor : Text
  beforeName : Text
  beforeStatus : Text
  behindStatus : Text
  /-- The function that tries the ways to satisfy the security of a method. -/
  beforeAttempt : Text
  /-- One such try. -/
  attempt : Text
  behindAttempt : Text

namespace Wording

/-- The wording for Express. -/
def express : Wording where
  service := "Express".toList
  authentication := "expressAuthentication".toList
  types := paragraph [
    "import type \x7b Request as ExRequest, Response as ExResponse, RequestHandler, Router \x7d " ++
      "from 'express';",
    ""]
  recast := some (paragraph [
    "",
    "const expressAuthenticationRecasted = expressAuthentication as (req: ExRequest, " ++
      "securityName: string, scopes?: string[], res?: ExResponse) => Promise<any>;",
    ""])
  serviceArguments := []
  router := "app: Router".toList
  beforeVerb := paragraph ["", "    app."]
  beforePath := "('".toList
  behindPath := "',".toList
  beforeSecurity := paragraph ["", "        authenticateMiddleware("]
  behindSecurity := "),".toList
  beforeMiddlewares := paragraph ["", "        ...(fetchMiddlewares<RequestHandler>("]
  beforeHandler := paragraph ["", "", "        async function "]
  signature := paragraph [
    "(request: ExRequest, response: ExResponse, next: any) \x7b",
    "            let validatedArgs: any[] = [];",
    "            try \x7b",
    "                validatedArgs = templateService.getValidatedArgs(\x7b args: args"]
  behindArguments := ", request, response \x7d);".toList
  beforeContainer := paragraph [
    "",
    "                const container: IocContainer = typeof iocContainer === 'function' ? " ++
      "(iocContainer as IocContainerFactory)(request) : iocContainer;",
    "                const controller: any = await container.get<"]
  beforeConstructor := paragraph ["", "                const controller = new "]
  beforeName := paragraph [
    "",
    "",
    "                await templateService.apiHandler(\x7b",
    "                    methodName: '"]
  beforeStatus := paragraph [
    "',",
    "                    controller,",
    "                    response,",
    "                    next,",
    "                    validatedArgs,",
    "                    successStatus: "]
  behindStatus := paragraph [
    ",",
    "                \x7d);",
    "            \x7d catch (err) \x7b",
    "                return next(err);",
    "            \x7d",
    "        \x7d);"]
  beforeAttempt := paragraph [
    "",
    "",
    "    function authenticateMiddleware(security: TsoaRoute.Security[] = []) \x7b",
    "        return async function runAuthenticationMiddleware(request: any, response: any, " ++
      "next: any) \x7b",
    "            const failedAttempts: any[] = [];",
    "            for (const secMethod of security) \x7b",
    "                try \x7b",
    "                    const [name, scopes] = Object.entries(secMethod)[0] as [string, " ++
      "string[]];",
    "                    request['user'] = await "]
  attempt := "expressAuthenticationRecasted(request, name, scopes, response)".toList
  behindAttempt := paragraph [
    ";",
    "                    return next();",
    "                \x7d catch (err) \x7b",
    "                    failedAttempts.push(err);",
    "                \x7d",
    "            \x7d",
    "            return next(failedAttempts.pop());",
    "        \x7d;",
    "    \x7d"]

/-- The wording for Koa. -/
def koa : Wording where
  service := "Koa".toList
  authentication := "koaAuthentication".toList
  types := paragraph [
    "import type \x7b Context, Next, Middleware \x7d from 'koa';",
    "import type * as KoaRouter from '@koa/router';",
    ""]
  recast := none
  serviceArguments := []
  router := "router: KoaRouter".toList
  beforeVerb := paragraph ["", "    router."]
  beforePath := "('".toList
  behindPath := "',".toList
  beforeSecurity := paragraph ["", "        authenticateMiddleware("]
  behindSecurity := "),".toList
  beforeMiddlewares := paragraph ["", "        ...(fetchMiddlewares<Middleware>("]
  beforeHandler := paragraph ["", "", "        async function "]
  signature := paragraph [
    "(context: Context, next: Next) \x7b",
    "            let validatedArgs: any[] = [];",
    "            try \x7b",
    "                validatedArgs = templateService.getValidatedArgs(\x7b args: args"]
  behindArguments := paragraph [
    ", context, next \x7d);",
    "            \x7d catch (err) \x7b",
    "                const error = err as any;",
    "                error.message ||= JSON.stringify(\x7b fields: error.fields \x7d);",
    "                context.status = error.status;",
    "                context.throw(context.status, error.message, error);",
    "            \x7d"]
  beforeContainer := paragraph [
    "",
    "            const container: IocContainer = typeof iocContainer === 'function' ? " ++
      "(iocContainer as IocContainerFactory)(context.request) : iocContainer;",
    "            const controller: any = await container.get<"]
  beforeConstructor := paragraph ["", "            const controller = new "]
  beforeName := paragraph [
    "",
    "",
    "            return templateService.apiHandler(\x7b",
    "                methodName: '"]
  beforeStatus := paragraph [
    "',",
    "                controller,",
    "                context,",
    "                validatedArgs,",
    "                successStatus: "]
  behindStatus := paragraph [
    ",",
    "            \x7d);",
    "        \x7d);"]
  beforeAttempt := paragraph [
    "",
    "",
    "    function authenticateMiddleware(security: TsoaRoute.Security[] = []) \x7b",
    "        return async function runAuthenticationMiddleware(context: any, next: any) \x7b",
    "            const failedAttempts: any[] = [];",
    "            for (const secMethod of security) \x7b",
    "                try \x7b",
    "                    const [name, scopes] = Object.entries(secMethod)[0] as [string, " ++
      "string[]];",
    "                    context.request['user'] = await "]
  attempt := "koaAuthentication(context.request, name, scopes)".toList
  behindAttempt := paragraph [
    ";",
    "                    return next();",
    "                \x7d catch (err) \x7b",
    "                    failedAttempts.push(err);",
    "                \x7d",
    "            \x7d",
    "            context.throw(401, failedAttempts.pop());",
    "        \x7d;",
    "    \x7d"]

/-- The wording for Hapi. -/
def hapi : Wording where
  service := "Hapi".toList
  authentication := "hapiAuthentication".toList
  types := paragraph [
    "import \x7b boomify, isBoom, type Payload \x7d from '@hapi/boom';",
    "import type \x7b Request, ResponseToolkit, RouteOptionsPreAllOptions, Server \x7d " ++
      "from '@hapi/hapi';",
    ""]
  recast := none
  serviceArguments := ", \x7b boomify, isBoom \x7d".toList
  router := "server: Server".toList
  beforeVerb := paragraph ["", "    server.route(\x7b", "        method: '"]
  beforePath := paragraph ["',", "        path: '"]
  behindPath := paragraph ["',", "        options: \x7b", "            pre: ["]
  beforeSecurity := paragraph ["", "                \x7b method: authenticateMiddleware("]
  behindSecurity := ") \x7d,".toList
  beforeMiddlewares := paragraph [
    "",
    "                ...(fetchMiddlewares<RouteOptionsPreAllOptions>("]
  beforeHandler := paragraph ["", "            ],", "            handler: async function "]
  signature := paragraph [
    "(request: Request, h: ResponseToolkit) \x7b",
    "                let validatedArgs: any[] = [];",
    "                try \x7b",
    "                    validatedArgs = templateService.getValidatedArgs(\x7b args: args"]
  behindArguments := paragraph [
    ", request, h \x7d);",
    "                \x7d catch (err) \x7b",
    "                    const error = err as any;",
    "                    if (isBoom(error)) \x7b",
    "                        throw error;",
    "                    \x7d",
    "                    const boomErr = boomify(error instanceof Error ? error : new " ++
      "Error(error.message));",
    "                    boomErr.output.statusCode = error.status || 500;",
    "                    boomErr.output.payload = \x7b name: error.name, fields: error.fields, " ++
      "message: error.message \x7d as unknown as Payload;",
    "                    throw boomErr;",
    "                \x7d"]
  beforeContainer := paragraph [
    "",
    "                const container: IocContainer = typeof iocContainer === 'function' ? " ++
      "(iocContainer as IocContainerFactory)(request) : iocContainer;",
    "                const controller: any = await container.get<"]
  beforeConstructor := paragraph ["", "                const controller = new "]
  beforeName := paragraph [
    "",
    "",
    "                return templateService.apiHandler(\x7b",
    "                    methodName: '"]
  beforeStatus := paragraph [
    "',",
    "                    controller,",
    "                    h,",
    "                    validatedArgs,",
    "                    successStatus: "]
  behindStatus := paragraph [
    ",",
    "                \x7d);",
    "            \x7d,",
    "        \x7d,",
    "    \x7d);"]
  beforeAttempt := paragraph [
    "",
    "",
    "    function authenticateMiddleware(security: TsoaRoute.Security[] = []) \x7b",
    "        return async function runAuthenticationMiddleware(request: any, h: any) \x7b",
    "            const failedAttempts: any[] = [];",
    "            for (const secMethod of security) \x7b",
    "                try \x7b",
    "                    const [name, scopes] = Object.entries(secMethod)[0] as [string, " ++
      "string[]];",
    "                    request['user'] = await "]
  attempt := "hapiAuthentication(request, name, scopes, h)".toList
  behindAttempt := paragraph [
    ";",
    "                    return request['user'];",
    "                \x7d catch (err) \x7b",
    "                    failedAttempts.push(err);",
    "                \x7d",
    "            \x7d",
    "            throw boomify(failedAttempts.pop() ?? new Error('Unauthorized'), \x7b " ++
      "statusCode: 401 \x7d);",
    "        \x7d;",
    "    \x7d"]

end Wording

/-- The wording of a framework's module. -/
def Framework.wording : Framework → Wording
  | express => .express
  | koa => .koa
  | hapi => .hapi

end RouteModule
